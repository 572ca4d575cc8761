import Stevedore.Deployment

/-! Services that run beside others in their pods, and the rules that attach them. -/
namespace Stevedore

structure SidecarService where
  service : Service
  /-- Profiles of its own type that a host mounts; a placeholder stands for the host's type. -/
  profileNames : List String
  deriving DecidableEq

namespace SidecarService

def placeholder : List Char := "\x7bservice\x7d".toList

/-- Puts `value` in the place of every placeholder, from the left. -/
def expand (value : List Char) : Nat → List Char → List Char
  | 0, cs => cs
  | _ + 1, [] => []
  | fuel + 1, c :: rest =>
    if placeholder.isPrefixOf (c :: rest) then
      value ++ expand value fuel (rest.drop (placeholder.length - 1))
    else c :: expand value fuel rest

def expandName (serviceType name : String) : String :=
  String.ofList (expand serviceType.toList name.toList.length name.toList)

def profileNamesFor (s : SidecarService) (host : Service) : List String :=
  s.profileNames.map (expandName host.serviceType)

/-- The profiles that a host has to mount, each with its name; none where it was not supplied. -/
def profilesFor (s : SidecarService) (resolved : Resolved) (host : Service) :
    List (String × Option Profile) :=
  (s.profileNamesFor host).map fun name =>
    (name, (resolved.profilesOf s.service.serviceType).get? name)

def encodeFields (s : SidecarService) : List (String × Json) :=
  s.service.encodeFields ++ [("profileNames", .texts s.profileNames)]

def encode (s : SidecarService) : Json := .record s.encodeFields

/-- The fields of the service stand beside the profile names. -/
def decode? {δ : Type} [Document δ] (d : δ) : Option SidecarService := do
  let fields ← Document.sharedFields? ["profileNames"] d
  let profileNames ← Document.defaulted? fields "profileNames" []
    (Document.listOf? Document.text?)
  let service ← (Document.others? ["profileNames"] fields).bind Service.decode?
  return { service, profileNames }

end SidecarService

/-- When a sidecar service is attached to a host. -/
inductive Attachment where
  /-- While the sidecar is enabled and the host asks to be monitored. -/
  | monitoring
  | always
  | never
  deriving DecidableEq

structure SidecarRule where
  sidecar : SidecarService
  condition : Attachment
  deriving DecidableEq

namespace SidecarRule

def isMonitoring (settings : Table Settings) (host : Service) (s : SidecarService) : Bool :=
  ((settings.get? s.service.serviceType).map (·.enabled)).getD false &&
    ((settings.get? host.serviceType).map (·.monitored)).getD false

def holds (rule : SidecarRule) (settings : Table Settings) (host : Service) : Bool :=
  match rule.condition with
  | .monitoring => isMonitoring settings host rule.sidecar
  | .always => true
  | .never => false

def attached (rules : List SidecarRule) (settings : Table Settings) (host : Service) :
    List SidecarService :=
  (rules.filter fun rule => rule.holds settings host).map (·.sidecar)

end SidecarRule
end Stevedore
