import Stevedore.Profile
import Stevedore.Service.Basic
import Stevedore.Service.Settings
import Stevedore.Sidecar.Custom
import Stevedore.Sizing

/-! The target of one deployment run and what is resolved for its services. -/
namespace Stevedore

structure Account where
  name : String
  context : Option String
  kubeconfig : Option String
  deriving DecidableEq

namespace Account

def empty : Account := { name := "", context := none, kubeconfig := none }

def encode (a : Account) : Json :=
  .record ([("name", .text a.name)] ++ Json.field? "context" .text a.context ++
    Json.field? "kubeconfigFile" .text a.kubeconfig)

def decode? {δ : Type} [Document δ] (d : δ) : Option Account := do
  let fields ← Document.fields? ["name", "context", "kubeconfigFile"] d
  let name ← Document.required? fields "name" Document.text?
  let context ← Document.optional? fields "context" Document.text?
  let kubeconfig ← Document.optional? fields "kubeconfigFile" Document.text?
  return { name, context, kubeconfig }

end Account

structure Environment where
  sidecars : Table (List CustomSidecar)
  /-- Entries of any form, which go to the pod as they are. -/
  initContainers : Table (List Json)
  hostAliases : Table (List Json)
  sizing : Option SizingTable

namespace Environment

def empty : Environment :=
  { sidecars := .empty, initContainers := .empty, hostAliases := .empty, sizing := none }

def sidecarsFor (e : Environment) (serviceType : String) : List CustomSidecar :=
  (e.sidecars.get? serviceType).getD []

def initContainersFor (e : Environment) (serviceType : String) : List Json :=
  (e.initContainers.get? serviceType).getD []

def hostAliasesFor (e : Environment) (serviceType : String) : List Json :=
  (e.hostAliases.get? serviceType).getD []

def encode (e : Environment) : Json :=
  .record ([("sidecars", .ofTable (e.sidecars.mapValues fun l => .list (l.map CustomSidecar.encode))),
      ("initContainers", .ofTable (e.initContainers.mapValues .list)),
      ("hostAliases", .ofTable (e.hostAliases.mapValues .list))] ++
    Json.field? "customSizing" SizingTable.encode e.sizing)

def decode? {δ : Type} [Document δ] (d : δ) : Option Environment := do
  let fields ← Document.fields? ["sidecars", "initContainers", "hostAliases", "customSizing"] d
  let sidecars ← Document.defaulted? fields "sidecars" .empty
    (Document.tableOf? (Document.listOf? CustomSidecar.decode?))
  let initContainers ← Document.defaulted? fields "initContainers" .empty
    (Document.tableOf? (Document.listOf? Document.json?))
  let hostAliases ← Document.defaulted? fields "hostAliases" .empty
    (Document.tableOf? (Document.listOf? Document.json?))
  let sizing ← Document.optional? fields "customSizing" SizingTable.decode?
  return { sidecars, initContainers, hostAliases, sizing }

end Environment

/-- One deployment: its name scopes staging paths, its version becomes a label. -/
structure Configuration where
  name : String
  version : String
  environment : Environment

namespace Configuration

def empty : Configuration := { name := "", version := "", environment := .empty }

def encode (c : Configuration) : Json :=
  .record [("name", .text c.name), ("version", .text c.version),
    ("environment", c.environment.encode)]

def decode? {δ : Type} [Document δ] (d : δ) : Option Configuration := do
  let fields ← Document.fields? ["name", "version", "environment"] d
  let name ← Document.required? fields "name" Document.text?
  let version ← Document.defaulted? fields "version" "" Document.text?
  let environment ← Document.defaulted? fields "environment" .empty Environment.decode?
  return { name, version, environment }

end Configuration

structure Deployment where
  account : Account
  configuration : Configuration
  /-- Each deployment stages its profiles below this directory. -/
  stagingRoot : Path

namespace Deployment

def stagingPath (d : Deployment) : Path := d.stagingRoot.join d.configuration.name

def environment (d : Deployment) : Environment := d.configuration.environment

def sizing (d : Deployment) : Option SizingTable := d.environment.sizing

def replicasFor (d : Deployment) (serviceType : String) (settings : Settings) : UInt32 :=
  (d.sizing.bind fun t => t.replicas serviceType).getD settings.targetSize

end Deployment

/-- Settings by service type, and profiles by service type and name. -/
structure Resolved where
  settings : Table Settings
  profiles : Table (Table Profile)

namespace Resolved

def empty : Resolved := ⟨.empty, .empty⟩

def settingsOf? (r : Resolved) (s : Service) : Option Settings := r.settings.get? s.serviceType

def profilesOf (r : Resolved) (serviceType : String) : Table Profile :=
  (r.profiles.get? serviceType).getD .empty

/-- A later profile replaces one of the same name. -/
def addProfile (r : Resolved) (serviceType : String) (p : Profile) : Resolved :=
  { r with profiles := r.profiles.modify serviceType .empty fun t => t.insert p.name p }

def addSettings (r : Resolved) (serviceType : String) (s : Settings) : Resolved :=
  { r with settings := r.settings.insert serviceType s }

end Resolved
end Stevedore
