import Stevedore.Pod.Basic
import Stevedore.Template.Set

/-! Pods and their parts as text, from the inside out. -/
namespace Stevedore
open Manifest

/-- A list that is bound only if it holds something. -/
def nonEmpty (items : List String) : Option (List String) :=
  if items.isEmpty then none else some items

def envEntries (env : Table String) : List Json :=
  env.entries.map fun e => .record [("name", .text e.1), ("value", .text e.2)]

def renderOptional {α : Type} (render : α → Except TemplateError String) :
    Option α → Except TemplateError (Option String)
  | none => .ok none
  | some value => (render value).map some

namespace TemplateSet

def renderMount (t : TemplateSet) (m : VolumeMount) : Except TemplateError String :=
  t.render .volumeMount [("name", .text m.name), ("mountPath", .text m.mountPath)]

def renderPort (t : TemplateSet) (port : UInt16) : Except TemplateError String :=
  t.render .port [("port", .integer port.toNat)]

def renderProbe (t : TemplateSet) : Probe → Except TemplateError String
  | .exec command => t.render .execProbe [("command", .texts command)]
  | .tcp port => t.render .tcpProbe [("port", .integer port.toNat)]

def renderPreStop (t : TemplateSet) (command : List String) : Except TemplateError String :=
  t.render .lifecycle [("command", .texts command)]

def renderResources (t : TemplateSet) (r : Resources) : Except TemplateError String :=
  t.render .resources [("requests", .ofTable r.requests), ("limits", .ofTable r.limits)]

def renderSecurity (t : TemplateSet) (c : SecurityContext) : Except TemplateError String :=
  t.render .securityContext [("privileged", .bool c.privileged)]

def renderContainer (t : TemplateSet) (c : Container) : Except TemplateError String := do
  let mounts ← c.volumeMounts.mapM t.renderMount
  let port ← renderOptional t.renderPort c.port
  let probe ← renderOptional t.renderProbe c.probe
  let preStop ← renderOptional t.renderPreStop c.preStop
  let resources ← renderOptional t.renderResources c.resources
  let security ← renderOptional t.renderSecurity c.securityContext
  t.render .container
    ([("name", .text c.name)] ++ Json.field? "image" .text c.image ++
      Json.field? "command" .texts (nonEmpty c.command) ++
      Json.field? "args" .texts (nonEmpty c.args) ++ Json.field? "port" .text port ++
      [("volumeMounts", .texts mounts), ("env", .list (envEntries c.env))] ++
      Json.field? "readinessProbe" .text probe ++ Json.field? "lifecycle" .text preStop ++
      Json.field? "resources" .text resources ++ Json.field? "securityContext" .text security)

def renderVolume (t : TemplateSet) (s : ConfigSource) : Except TemplateError String :=
  let fragment : Fragment := match s.kind with
    | .secret => .secretVolume
    | .emptyDir => .emptyDirVolume
    | .configMap => .configMapVolume
  t.render fragment [("name", .text s.id)]

def renderPod (t : TemplateSet) (p : Pod) : Except TemplateError String := do
  let containers ← p.containers.mapM t.renderContainer
  let volumes ← p.volumes.mapM t.renderVolume
  t.render .podSpec
    ([("containers", .texts containers)] ++
      Json.field? "initContainers" .texts p.initContainers ++
      Json.field? "hostAliases" .texts p.hostAliases ++
      [("imagePullSecrets", .texts p.imagePullSecrets),
        ("terminationGracePeriodSeconds", .integer p.gracePeriod.toNat),
        ("volumes", .texts volumes)])

end TemplateSet
end Stevedore
