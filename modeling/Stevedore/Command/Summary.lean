import Stevedore.Assembly
import Stevedore.Command.Session

/-! Deployment files summarised and checked. -/
namespace Stevedore
namespace Summary

def unset : String := "(not set)"

/-- Where a deployment file is looked for, with what the user gave for it. -/
def searched (surroundings : Surroundings) (config : Option Path) : List String :=
  let name := Surroundings.configPathVariable
  ["Deployment file discovery paths:",
    "  1. --config flag: " ++ (config.map Path.text).getD unset,
    "  2. " ++ name ++ ": " ++ (surroundings.value? name).getD unset,
    "  3. ./fleetyard.yaml", "  4. ~/.fleetyard/config.yaml", ""]

def deployment (d : Declaration) (plan : Plan) : List String :=
  ["Deployment:", "  Name: " ++ d.name,
    "  Version: " ++ (if d.version.isEmpty then "(unset)" else d.version),
    "  Account: " ++ d.account.name] ++
    d.account.context.toList.map ("  Context: " ++ ·) ++
    ["  Staging: " ++ plan.deployment.stagingPath.text, ""]

def service (plan : Plan) (s : Service) (settings : Settings) : List String :=
  let state := if settings.enabled then "enabled" else "disabled"
  ["  " ++ s.canonicalName ++ " (" ++ s.serviceType ++ ") [" ++ state ++ "]",
    "    Namespace: " ++ settings.namespaceName, "    Port: " ++ toString settings.port.toNat] ++
    settings.artifactId.toList.map ("    Image: " ++ ·) ++
    ["    Profiles: " ++ toString (plan.resolved.profilesOf s.serviceType).entries.length] ++
    (plan.deployment.environment.sidecarsFor s.serviceType).map ("      + " ++ ·.name)

def monitoring (s : SidecarService) : List String :=
  ["", "Monitoring:", "  Sidecar: " ++ s.service.canonicalName] ++
    s.profileNames.map ("    - " ++ ·)

end Summary

namespace Step

def summarizeService (plan : Plan) (s : Service) : Step Unit := do
  let settings ← require (plan.resolved.settingsFor s) DeployError.causes
  printLines (Summary.service plan s settings)

def summarize (surroundings : Surroundings) (config : Option Path) (withPaths : Bool) :
    Step Unit := do
  if withPaths then printLines (Summary.searched surroundings config)
  let (d, plan) ← planned surroundings config
  printLines (Summary.deployment d plan)
  printLine "Services:"
  plan.services.forM (summarizeService plan)
  printLines (plan.monitoring.toList.flatMap Summary.monitoring)

def requireSettings (plan : Plan) (s : Service) : Step Unit := do
  discard <| require (plan.resolved.settingsFor s) fun e =>
    .message ("Service " ++ s.canonicalName ++ " has no settings") :: e.causes

def validate (surroundings : Surroundings) (file : Option Path) : Step Unit := do
  printLine "Validating deployment file..."
  let (_, plan) ← planned surroundings file
  plan.services.forM (requireSettings plan)
  printLines ["✓ Deployment file is valid",
    "  " ++ toString plan.services.length ++ " service(s); staging root overridable with " ++
      Surroundings.stagingRootVariable]

end Step
end Stevedore
