import Stevedore.Json.Document

/-! Extra containers that an operator declares for a service. -/
namespace Stevedore

structure ConfigMapMount where
  configMapName : String
  mountPath : String
  deriving DecidableEq

namespace ConfigMapMount

def encode (m : ConfigMapMount) : Json :=
  .record [("configMapName", .text m.configMapName), ("mountPath", .text m.mountPath)]

def decode? {δ : Type} [Document δ] (d : δ) : Option ConfigMapMount := do
  let fields ← Document.fields? ["configMapName", "mountPath"] d
  let configMapName ← Document.required? fields "configMapName" Document.text?
  let mountPath ← Document.required? fields "mountPath" Document.text?
  return { configMapName, mountPath }

end ConfigMapMount

structure SecurityContext where
  privileged : Bool
  deriving DecidableEq

namespace SecurityContext

def encode (c : SecurityContext) : Json := .record [("privileged", .bool c.privileged)]

def decode? {δ : Type} [Document δ] (d : δ) : Option SecurityContext := do
  let fields ← Document.fields? ["privileged"] d
  let privileged ← Document.defaulted? fields "privileged" false Document.flag?
  return { privileged }

end SecurityContext

structure CustomSidecar where
  name : String
  image : String
  command : List String
  args : List String
  env : Table String
  securityContext : Option SecurityContext
  configMapMounts : List ConfigMapMount
  /-- A scratch directory that an empty directory of the pod backs. -/
  mountPath : Option String
  deriving DecidableEq

namespace CustomSidecar

/-- An empty mount path is none. -/
def scratchPath (s : CustomSidecar) : Option String := s.mountPath.filter fun path => !path.isEmpty

def encode (s : CustomSidecar) : Json :=
  .record ([("name", .text s.name), ("dockerImage", .text s.image), ("command", .texts s.command),
      ("args", .texts s.args), ("env", .textTable s.env)] ++
    Json.field? "securityContext" SecurityContext.encode s.securityContext ++
    [("configMapVolumeMounts", .list (s.configMapMounts.map ConfigMapMount.encode))] ++
    Json.field? "mountPath" .text s.mountPath)

def fieldNames : List String :=
  ["name", "dockerImage", "command", "args", "env", "securityContext", "configMapVolumeMounts",
    "mountPath"]

def decode? {δ : Type} [Document δ] (d : δ) : Option CustomSidecar := do
  let fields ← Document.fields? fieldNames d
  let name ← Document.required? fields "name" Document.text?
  let image ← Document.required? fields "dockerImage" Document.text?
  let command ← Document.defaulted? fields "command" [] (Document.listOf? Document.text?)
  let args ← Document.defaulted? fields "args" [] (Document.listOf? Document.text?)
  let env ← Document.defaulted? fields "env" .empty Document.textTable?
  let securityContext ← Document.optional? fields "securityContext" SecurityContext.decode?
  let configMapMounts ← Document.defaulted? fields "configMapVolumeMounts" []
    (Document.listOf? ConfigMapMount.decode?)
  let mountPath ← Document.optional? fields "mountPath" Document.text?
  return { name, image, command, args, env, securityContext, configMapMounts, mountPath }

end CustomSidecar
end Stevedore
