import Stevedore.Error
import Stevedore.Sidecar.Attached

/-!
Staging: the profiles of a service and of its sidecars become bundles, one for each directory they
land in, and one for the files they require. All of it is planned before a store is called.
-/
namespace Stevedore

/-- An activity that may fail and changes a state that outlives the failure. -/
abbrev Activity (σ α : Type) := ExceptT DeployError (StateM σ) α

structure StagingGroup where
  mountPath : String
  files : List MountPair
  env : Table String

namespace Staging

/-- Puts a sidecar's profile over those of the host. -/
def addSidecarProfile (sidecar : SidecarService) (host : Service) (profiles : Table Profile)
    (entry : String × Option Profile) : Except DeployError (Table Profile) :=
  match entry with
  | (_, some p) => .ok (profiles.insert p.name p)
  | (name, none) =>
    .error (.sidecarProfileMissing sidecar.service.canonicalName host.canonicalName name)

/-- The host's profiles by name, overlaid with those of its sidecars in order. -/
def mergeProfiles (host : Service) (sidecars : List SidecarService) (resolved : Resolved) :
    Except DeployError (Table Profile) :=
  sidecars.foldlM (fun profiles sidecar =>
    (sidecar.profilesFor resolved host).foldlM (addSidecarProfile sidecar host) profiles)
    (resolved.profilesOf host.serviceType)

def byDirectory (profiles : Table Profile) : Table (List Profile) :=
  profiles.values.foldl (fun t p => t.modify p.outputDirectory [] (· ++ [p])) .empty

/-- The files that profiles require, each once, in the order they are first named. -/
def requiredFiles (profiles : Table Profile) : List String :=
  (profiles.values.flatMap (·.requiredFiles)).foldl
    (fun seen file => if seen.contains file then seen else seen ++ [file]) []

def directoryGroup (stagingPath : Path) (directory : String) (members : List Profile) :
    StagingGroup :=
  { mountPath := directory
    files := members.map fun p => ⟨p.stagedFile stagingPath, ⟨p.outputFile⟩⟩
    env := (members.map (·.env)).foldl Table.overlay .empty }

/-- Required files are mounted together, into the directory of the first. -/
def requiredGroup : List String → List StagingGroup
  | [] => []
  | first :: rest =>
    [{ mountPath := (⟨first⟩ : Path).directory
       files := (first :: rest).map MountPair.verbatim
       env := .empty }]

/-- One group for each directory in ascending order, and then one for the required files. -/
def groups (stagingPath : Path) (profiles : Table Profile) : List StagingGroup :=
  ((byDirectory profiles).entries.map fun e => directoryGroup stagingPath e.1 e.2) ++
    requiredGroup (requiredFiles profiles)

def stem (service : Service) : String := service.canonicalName ++ "-files"

def request (account : Account) (service : Service) (namespaceName : String)
    (g : StagingGroup) : BundleRequest :=
  { account, namespaceName, service := service.canonicalName, stem := stem service,
    files := g.files }

variable {σ : Type}

def create (store : BundleStore σ) (r : BundleRequest) : Activity σ String := fun state =>
  match store.create r state with
  | (.ok name, state) => (.ok name, state)
  | (.error e, state) => (.error (.store e), state)

/-- Makes the bundle of a group; the first failure ends the staging. -/
def stageGroup (store : BundleStore σ) (account : Account) (service : Service)
    (namespaceName : String) (g : StagingGroup) : Activity σ ConfigSource := do
  let name ← create store (request account service namespaceName g)
  return .secret name g.mountPath g.env

/-- The config sources that a service mounts, in the order their bundles were made. -/
def stage (store : BundleStore σ) (account : Account) (service : Service)
    (sidecars : List SidecarService) (resolved : Resolved) (stagingPath : Path)
    (namespaceName : String) : Activity σ (List ConfigSource) := do
  let profiles ← (mergeProfiles service sidecars resolved : Except DeployError _)
  (groups stagingPath profiles).mapM (stageGroup store account service namespaceName)

end Staging
end Stevedore
