import Stevedore.Label
import Stevedore.Pod.Builder
import Stevedore.Pod.Renderer
import Stevedore.Staging

/-! The namespace, service and deployment manifests of a service. -/
namespace Stevedore

structure ServiceManifests where
  service : String
  namespaceName : String
  namespaceYaml : String
  serviceYaml : String
  deploymentYaml : String
  deriving DecidableEq

def ServiceManifests.stream (m : ServiceManifests) : String :=
  "---\n" ++ Text.trimEnd m.namespaceYaml ++ "\n---\n" ++ Text.trimEnd m.serviceYaml ++
    "\n---\n" ++ Text.trimEnd m.deploymentYaml ++ "\n"

structure Assembler (σ : Type) where
  templates : TemplateSet
  store : BundleStore σ
  rules : List SidecarRule

def Resolved.settingsFor (r : Resolved) (s : Service) : Except DeployError Settings :=
  match r.settingsOf? s with
  | some settings => .ok settings
  | none => .error (.missingSettings s.canonicalName)

/-- Entries as JSON texts; an empty list is absent. -/
def rawEntries (entries : List Json) : Option (List String) :=
  if entries.isEmpty then none else some (entries.map Json.compact)

def fromTemplate (r : Except TemplateError String) : Except DeployError String :=
  match r with
  | .ok text => .ok text
  | .error e => .error (.template e)

namespace Assembler
variable {σ : Type}

def namespaceManifest (a : Assembler σ) (service : Service) (resolved : Resolved) :
    Except DeployError String := do
  let settings ← resolved.settingsFor service
  fromTemplate (a.templates.render .namespaceManifest
    [("namespace", .text settings.namespaceName)])

def serviceManifest (a : Assembler σ) (service : Service) (resolved : Resolved) :
    Except DeployError String := do
  let settings ← resolved.settingsFor service
  fromTemplate (a.templates.render .serviceManifest
    [("name", .text service.canonicalName), ("namespace", .text settings.namespaceName),
      ("port", .integer settings.port.toNat)])

def sidecarsOf (a : Assembler σ) (service : Service) (resolved : Resolved) :
    List SidecarService :=
  SidecarRule.attached a.rules resolved.settings service

/-- The config sources of a pod: what staging made and the scratch volumes, without repeated ids. -/
def podSources (staged : List ConfigSource) (sidecars : List CustomSidecar) :
    List ConfigSource :=
  (UniqueSources.ofList (staged ++ scratchVolumes sidecars)).sources

def sidecarContainers (host : Service) (deployment : Deployment) (resolved : Resolved)
    (sources : List ConfigSource) (env : Table String) (sidecars : List SidecarService) :
    Except DeployError (List Container) :=
  sidecars.mapM fun s => do
    let settings ← resolved.settingsFor s.service
    return Container.ofService host deployment.sizing s.service.canonicalName settings sources env

def podOf (service : Service) (settings : Settings) (deployment : Deployment)
    (resolved : Resolved) (sidecars : List SidecarService) (staged : List ConfigSource) :
    Except DeployError Pod := do
  let environment := deployment.environment
  let custom := environment.sidecarsFor service.serviceType
  let sources := podSources staged custom
  let env := mergedEnv sources settings
  let attached ← sidecarContainers service deployment resolved sources env sidecars
  let primary :=
    Container.ofService service deployment.sizing service.canonicalName settings sources env
  return {
    containers := primary :: attached ++ custom.map Container.ofSidecar
    initContainers := rawEntries (environment.initContainersFor service.serviceType)
    hostAliases := rawEntries (environment.hostAliasesFor service.serviceType)
    imagePullSecrets := settings.extras.imagePullSecrets
    gracePeriod := service.gracePeriod
    volumes := podVolumes sources settings custom }

def renderDeployment (a : Assembler σ) (service : Service) (settings : Settings)
    (deployment : Deployment) (pod : Pod) : Except DeployError String := do
  let podSpec ← fromTemplate (a.templates.renderPod pod)
  let replicas := deployment.replicasFor service.serviceType settings
  fromTemplate (a.templates.render .deploymentManifest
    [("name", .text service.canonicalName), ("namespace", .text settings.namespaceName),
      ("replicas", .integer replicas.toNat),
      ("version", .text (Label.ofVersion deployment.configuration.version)),
      ("podAnnotations", .textTable settings.extras.annotations), ("podSpec", .text podSpec)])

/-- Stages the configuration of a service and gives its pod. -/
def stagePod (a : Assembler σ) (service : Service) (settings : Settings)
    (deployment : Deployment) (resolved : Resolved) : Activity σ Pod := do
  let sidecars := a.sidecarsOf service resolved
  let staged ← Staging.stage a.store deployment.account service sidecars resolved
    deployment.stagingPath settings.namespaceName
  (podOf service settings deployment resolved sidecars staged : Except DeployError Pod)

def deploymentManifest (a : Assembler σ) (service : Service) (deployment : Deployment)
    (resolved : Resolved) : Activity σ String := do
  let settings ← (resolved.settingsFor service : Except DeployError Settings)
  let pod ← a.stagePod service settings deployment resolved
  (a.renderDeployment service settings deployment pod : Except DeployError String)

def assemble (a : Assembler σ) (service : Service) (deployment : Deployment)
    (resolved : Resolved) : Activity σ ServiceManifests := do
  let settings ← (resolved.settingsFor service : Except DeployError Settings)
  let namespaceYaml ← (a.namespaceManifest service resolved : Except DeployError String)
  let serviceYaml ← (a.serviceManifest service resolved : Except DeployError String)
  let deploymentYaml ← a.deploymentManifest service deployment resolved
  return { service := service.canonicalName, namespaceName := settings.namespaceName,
           namespaceYaml, serviceYaml, deploymentYaml }

end Assembler

def Resolved.isEnabled (r : Resolved) (s : Service) : Except DeployError Bool :=
  (r.settingsFor s).map (·.enabled)

/-- The services that are enabled, in order; each of them needs settings. -/
def enabledServices (services : List Service) (resolved : Resolved) :
    Except DeployError (List Service) :=
  services.filterM resolved.isEnabled

namespace Assembler
variable {σ : Type}

def assembleAll (a : Assembler σ) (services : List Service) (deployment : Deployment)
    (resolved : Resolved) : Activity σ (List ServiceManifests) := do
  let enabled ← (enabledServices services resolved : Except DeployError (List Service))
  enabled.mapM fun service => a.assemble service deployment resolved

end Assembler
end Stevedore
