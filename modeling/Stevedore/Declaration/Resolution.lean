import Stevedore.Declaration.Basic
import Stevedore.Service.Completion

/-! Declarations resolved into what assembly works on. -/
namespace Stevedore

structure Plan where
  deployment : Deployment
  resolved : Resolved
  /-- In the order of their declaration. -/
  services : List Service
  monitoring : Option SidecarService

namespace Plan

def service? (p : Plan) (canonicalName : String) : Option Service :=
  p.services.find? fun s => s.canonicalName = canonicalName

/-- The monitoring sidecar is attached where it is asked for. -/
def rules (p : Plan) : List SidecarRule :=
  p.monitoring.toList.map fun s => { sidecar := s, condition := .monitoring }

end Plan

namespace Declaration

def completeSettings (d : Declaration) (e : Entry Service) : Except DeployError Settings :=
  e.settings.complete d.artifacts.source e.subject d.name d.location

/-- Adds the settings and profiles of an entry under its service type. -/
def addEntry (d : Declaration) (r : Resolved) (e : Entry Service) : Except DeployError Resolved := do
  let settings ← d.completeSettings e
  let type := e.subject.serviceType
  return e.profiles.foldl (fun r p => r.addProfile type p) (r.addSettings type settings)

/-- Resolves the entries in order; `defaultRoot` is the staging root where none is declared. -/
def resolve (d : Declaration) (defaultRoot : Path) : Except DeployError Plan := do
  let resolved ← d.entries.foldlM d.addEntry .empty
  return {
    deployment :=
      { account := d.account
        configuration := { name := d.name, version := d.version, environment := d.environment }
        stagingRoot := d.stagingRoot.getD defaultRoot }
    resolved
    services := d.services.map (·.subject)
    monitoring := d.monitoring.map (·.subject) }

end Declaration
end Stevedore
