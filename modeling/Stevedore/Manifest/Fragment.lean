import Stevedore.Json.Basic

/-!
The fragments that manifests are built from, and the template of each. A value is written as JSON,
text that was rendered before is put in as it is, and a section whose value is not bound is left
out.
-/
namespace Stevedore.Manifest

inductive Fragment where
  | namespaceManifest
  | serviceManifest
  | deploymentManifest
  | podSpec
  | container
  | port
  | volumeMount
  | secretVolume
  | emptyDirVolume
  | configMapVolume
  | execProbe
  | tcpProbe
  | lifecycle
  | resources
  | securityContext
  deriving DecidableEq

namespace Fragment

def all : List Fragment :=
  [.namespaceManifest, .serviceManifest, .deploymentManifest, .podSpec, .container, .port,
    .volumeMount, .secretVolume, .emptyDirVolume, .configMapVolume, .execProbe,
    .tcpProbe, .lifecycle, .resources, .securityContext]

def fileName : Fragment → String
  | .namespaceManifest => "namespace.yml"
  | .serviceManifest => "service.yml"
  | .deploymentManifest => "deployment.yml"
  | .podSpec => "podSpec.yml"
  | .container => "container.yml"
  | .port => "port.yml"
  | .volumeMount => "volumeMount.yml"
  | .secretVolume => "secretVolume.yml"
  | .emptyDirVolume => "emptyDirVolume.yml"
  | .configMapVolume => "configMapVolume.yml"
  | .execProbe => "execReadinessProbe.yml"
  | .tcpProbe => "tcpSocketReadinessProbe.yml"
  | .lifecycle => "lifecycle.yml"
  | .resources => "resources.yml"
  | .securityContext => "securityContext.yml"

/-- The template of a fragment where no other one is given, in pieces that follow one another. -/
def pieces : Fragment → List String
  | .namespaceManifest =>
    ["apiVersion: v1\n",
      "kind: Namespace\n",
      "metadata:\n",
      "  name: \x7b\x7bjson namespace\x7d\x7d"]
  | .serviceManifest =>
    ["apiVersion: v1\n",
      "kind: Service\n",
      "metadata:\n",
      "  name: \x7b\x7bjson name\x7d\x7d\n",
      "  namespace: \x7b\x7bjson namespace\x7d\x7d\n",
      "  labels: \x7b\"app\": \x7b\x7bjson name\x7d\x7d, \"cluster\": ",
      "\x7b\x7bjson name\x7d\x7d, \"app.kubernetes.io/managed-by\": \"fleetyard\"\x7d\n",
      "spec:\n",
      "  selector: \x7b\"cluster\": \x7b\x7bjson name\x7d\x7d \x7d\n",
      "  ports: [\x7b\"protocol\": \"TCP\", \"port\": \x7b\x7bjson port\x7d\x7d",
      ", \"targetPort\": \x7b\x7bjson port\x7d\x7d \x7d]\n",
      "  type: ClusterIP"]
  | .deploymentManifest =>
    ["apiVersion: apps/v1\n",
      "kind: Deployment\n",
      "metadata:\n",
      "  name: \x7b\x7bjson name\x7d\x7d\n",
      "  namespace: \x7b\x7bjson namespace\x7d\x7d\n",
      "  labels: \x7b\"app\": \x7b\x7bjson name\x7d\x7d, \"cluster\": ",
      "\x7b\x7bjson name\x7d\x7d, \"app.kubernetes.io/name\": \x7b\x7bjson name\x7d\x7d",
      ", \"app.kubernetes.io/version\": \x7b\x7bjson version\x7d\x7d",
      ", \"app.kubernetes.io/managed-by\": \"fleetyard\"\x7d\n",
      "spec:\n",
      "  replicas: \x7b\x7bjson replicas\x7d\x7d\n",
      "  selector:\n",
      "    matchLabels: \x7b\"cluster\": \x7b\x7bjson name\x7d\x7d \x7d\n",
      "  template:\n",
      "    metadata:\n",
      "      annotations: \x7b\x7bjson podAnnotations\x7d\x7d\n",
      "      labels: \x7b\"app\": \x7b\x7bjson name\x7d\x7d, \"cluster\": ",
      "\x7b\x7bjson name\x7d\x7d, \"app.kubernetes.io/name\": \x7b\x7bjson name\x7d\x7d",
      ", \"app.kubernetes.io/version\": \x7b\x7bjson version\x7d\x7d",
      ", \"app.kubernetes.io/managed-by\": \"fleetyard\"\x7d\n",
      "    spec: \x7b\x7b\x7bpodSpec\x7d\x7d\x7d"]
  | .podSpec =>
    ["\x7b\"containers\": [\x7b\x7b#each containers\x7d\x7d\x7b\x7b\x7bthis\x7d\x7d\x7d",
      "\x7b\x7b#unless @last\x7d\x7d, \x7b\x7b/unless\x7d\x7d\x7b\x7b/each\x7d\x7d]",
      "\x7b\x7b#if (defined initContainers)\x7d\x7d, \"initContainers\": [",
      "\x7b\x7b#each initContainers\x7d\x7d\x7b\x7b\x7bthis\x7d\x7d\x7d",
      "\x7b\x7b#unless @last\x7d\x7d, \x7b\x7b/unless\x7d\x7d\x7b\x7b/each\x7d\x7d]",
      "\x7b\x7b/if\x7d\x7d\x7b\x7b#if (defined hostAliases)\x7d\x7d, \"hostAliases\": [",
      "\x7b\x7b#each hostAliases\x7d\x7d\x7b\x7b\x7bthis\x7d\x7d\x7d",
      "\x7b\x7b#unless @last\x7d\x7d, \x7b\x7b/unless\x7d\x7d\x7b\x7b/each\x7d\x7d]",
      "\x7b\x7b/if\x7d\x7d, \"imagePullSecrets\": [\x7b\x7b#each imagePullSecrets\x7d\x7d\x7b",
      "\"name\": \x7b\x7bjson this\x7d\x7d \x7d\x7b\x7b#unless @last\x7d\x7d, ",
      "\x7b\x7b/unless\x7d\x7d\x7b\x7b/each\x7d\x7d], \"terminationGracePeriodSeconds\": ",
      "\x7b\x7bjson terminationGracePeriodSeconds\x7d\x7d, \"volumes\": [",
      "\x7b\x7b#each volumes\x7d\x7d\x7b\x7b\x7bthis\x7d\x7d\x7d\x7b\x7b#unless @last\x7d\x7d",
      ", \x7b\x7b/unless\x7d\x7d\x7b\x7b/each\x7d\x7d] \x7d"]
  | .container =>
    ["\x7b\"name\": \x7b\x7bjson name\x7d\x7d\x7b\x7b#if (defined image)\x7d\x7d",
      ", \"image\": \x7b\x7bjson image\x7d\x7d\x7b\x7b/if\x7d\x7d",
      "\x7b\x7b#if (defined command)\x7d\x7d, \"command\": \x7b\x7bjson command\x7d\x7d",
      "\x7b\x7b/if\x7d\x7d\x7b\x7b#if (defined args)\x7d\x7d, \"args\": ",
      "\x7b\x7bjson args\x7d\x7d\x7b\x7b/if\x7d\x7d\x7b\x7b#if (defined port)\x7d\x7d",
      ", \"ports\": [\x7b\x7b\x7bport\x7d\x7d\x7d]\x7b\x7b/if\x7d\x7d, \"volumeMounts\": [",
      "\x7b\x7b#each volumeMounts\x7d\x7d\x7b\x7b\x7bthis\x7d\x7d\x7d",
      "\x7b\x7b#unless @last\x7d\x7d, \x7b\x7b/unless\x7d\x7d\x7b\x7b/each\x7d\x7d",
      "], \"env\": \x7b\x7bjson env\x7d\x7d\x7b\x7b#if (defined readinessProbe)\x7d\x7d",
      ", \"readinessProbe\": \x7b\x7b\x7breadinessProbe\x7d\x7d\x7d\x7b\x7b/if\x7d\x7d",
      "\x7b\x7b#if (defined lifecycle)\x7d\x7d, \"lifecycle\": ",
      "\x7b\x7b\x7blifecycle\x7d\x7d\x7d\x7b\x7b/if\x7d\x7d",
      "\x7b\x7b#if (defined resources)\x7d\x7d, \"resources\": ",
      "\x7b\x7b\x7bresources\x7d\x7d\x7d\x7b\x7b/if\x7d\x7d",
      "\x7b\x7b#if (defined securityContext)\x7d\x7d, \"securityContext\": ",
      "\x7b\x7b\x7bsecurityContext\x7d\x7d\x7d\x7b\x7b/if\x7d\x7d \x7d"]
  | .port =>
    ["\x7b\"containerPort\": \x7b\x7bjson port\x7d\x7d \x7d"]
  | .volumeMount =>
    ["\x7b\"name\": \x7b\x7bjson name\x7d\x7d, \"mountPath\": \x7b\x7bjson mountPath\x7d\x7d",
      " \x7d"]
  | .secretVolume =>
    ["\x7b\"name\": \x7b\x7bjson name\x7d\x7d, \"secret\": \x7b\"secretName\": ",
      "\x7b\x7bjson name\x7d\x7d \x7d \x7d"]
  | .emptyDirVolume =>
    ["\x7b\"name\": \x7b\x7bjson name\x7d\x7d, \"emptyDir\": \x7b\x7d \x7d"]
  | .configMapVolume =>
    ["\x7b\"name\": \x7b\x7bjson name\x7d\x7d, \"configMap\": \x7b\"name\": ",
      "\x7b\x7bjson name\x7d\x7d \x7d \x7d"]
  | .execProbe =>
    ["\x7b\"exec\": \x7b\"command\": \x7b\x7bjson command\x7d\x7d \x7d \x7d"]
  | .tcpProbe =>
    ["\x7b\"tcpSocket\": \x7b\"port\": \x7b\x7bjson port\x7d\x7d \x7d \x7d"]
  | .lifecycle =>
    ["\x7b\"preStop\": \x7b\"exec\": \x7b\"command\": \x7b\x7bjson command\x7d\x7d",
      " \x7d \x7d \x7d"]
  | .resources =>
    ["\x7b\"requests\": \x7b\x7bjson requests\x7d\x7d, \"limits\": ",
      "\x7b\x7bjson limits\x7d\x7d \x7d"]
  | .securityContext =>
    ["\x7b\"privileged\": \x7b\x7bjson privileged\x7d\x7d \x7d"]

def source (f : Fragment) : List Char := f.pieces.flatMap String.toList

end Fragment
end Stevedore.Manifest
