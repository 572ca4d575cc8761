import Stevedore.Deployment
import Stevedore.Pod.Basic

/-! The containers of a service's pod. -/
namespace Stevedore

namespace Probe

/-- The health endpoint is asked where there is one, the port elsewhere. -/
def of (s : Settings) : Probe :=
  match s.healthEndpoint with
  | some endpoint => .exec (s.readinessCommand endpoint)
  | none => .tcp s.port

end Probe

namespace Resources

/-- Requests and limits of a container; none where neither holds a quantity. -/
def of (sizing : Option SizingTable) (container serviceType : String) : Option Resources :=
  (sizing.bind fun t => t.lookup container serviceType).bind fun s =>
    if s.requests.isEmpty && s.limits.isEmpty then none else some ⟨s.requests, s.limits⟩

end Resources

namespace Container

/-- A container of a service in the pod of a host: its name and settings are its own, the hook and
the type for sizing are the host's. -/
def ofService (host : Service) (sizing : Option SizingTable) (name : String) (settings : Settings)
    (sources : List ConfigSource) (env : Table String) : Container :=
  { name
    image := settings.artifactId
    port := some settings.port
    command := []
    args := []
    volumeMounts := (sources ++ settings.extras.volumes).map fun s => ⟨s.id, s.mountPath⟩
    probe := some (Probe.of settings)
    preStop := if host.preStopCommand.isEmpty then none else some host.preStopCommand
    env
    resources := Resources.of sizing name host.serviceType
    securityContext := none }

def ofSidecar (s : CustomSidecar) : Container :=
  { name := s.name
    image := some s.image
    port := none
    command := s.command
    args := s.args
    volumeMounts := (s.scratchPath.map fun path => (⟨s.name, path⟩ : VolumeMount)).toList ++
      s.configMapMounts.map fun m => ⟨m.configMapName, m.mountPath⟩
    probe := none
    preStop := none
    env := s.env
    resources := none
    securityContext := s.securityContext }

end Container

def scratchVolumes (sidecars : List CustomSidecar) : List ConfigSource :=
  sidecars.filterMap fun s => s.scratchPath.map fun path => .emptyDir s.name path

/-- The variables of the sources, then of the extra volumes, then the service's own; the later
value of a name is kept. -/
def mergedEnv (sources : List ConfigSource) (settings : Settings) : Table String :=
  (((sources ++ settings.extras.volumes).map (·.env)) ++ [settings.env]).foldl Table.overlay .empty

def configMapVolumes (sidecars : List CustomSidecar) : List ConfigSource :=
  sidecars.flatMap fun s => s.configMapMounts.map fun m => .configMap m.configMapName m.mountPath

/-- The sources, then the extra volumes, then the config maps; the first of an id is kept. -/
def podVolumes (sources : List ConfigSource) (settings : Settings)
    (sidecars : List CustomSidecar) : List ConfigSource :=
  (((UniqueSources.ofList sources).extend settings.extras.volumes).extend
    (configMapVolumes sidecars)).sources

end Stevedore
