import Stevedore.Json.Document

/-! Mountable bundles of a pod, and collections of them without repeated ids. -/
namespace Stevedore

inductive SourceKind where
  | secret
  | emptyDir
  | configMap
  deriving DecidableEq

namespace SourceKind

def word : SourceKind → String
  | .secret => "secret"
  | .emptyDir => "emptyDir"
  | .configMap => "configMap"

def ofWord? (s : String) : Option SourceKind :=
  if s = "secret" then some .secret
  else if s = "emptyDir" then some .emptyDir
  else if s = "configMap" then some .configMap
  else none

end SourceKind

/-- A volume, where it is mounted, and the environment variables its files imply. -/
structure ConfigSource where
  id : String
  mountPath : String
  env : Table String
  kind : SourceKind
  deriving DecidableEq

namespace ConfigSource

def secret (id mountPath : String) (env : Table String) : ConfigSource :=
  { id, mountPath, env, kind := .secret }

def emptyDir (id mountPath : String) : ConfigSource :=
  { id, mountPath, env := .empty, kind := .emptyDir }

def configMap (id mountPath : String) : ConfigSource :=
  { id, mountPath, env := .empty, kind := .configMap }

def encode (s : ConfigSource) : Json :=
  .record [("id", .text s.id), ("mountPath", .text s.mountPath), ("env", .textTable s.env),
    ("type", .text s.kind.word)]

def decode? {δ : Type} [Document δ] (d : δ) : Option ConfigSource := do
  let fields ← Document.fields? ["id", "mountPath", "env", "type"] d
  let id ← Document.required? fields "id" Document.text?
  let mountPath ← Document.required? fields "mountPath" Document.text?
  let env ← Document.defaulted? fields "env" .empty Document.textTable?
  let kind ← Document.defaulted? fields "type" .secret fun d =>
    (Document.word? d).bind SourceKind.ofWord?
  return { id, mountPath, env, kind }

end ConfigSource

/-- Sources in order, of which the first one of every id is kept, and the ids seen. -/
structure UniqueSources where
  seen : List String
  sources : List ConfigSource

namespace UniqueSources

def empty : UniqueSources := ⟨[], []⟩

/-- Adds a source, and says whether its id was new. -/
def push (u : UniqueSources) (s : ConfigSource) : UniqueSources × Bool :=
  if u.seen.contains s.id then (u, false)
  else (⟨s.id :: u.seen, u.sources ++ [s]⟩, true)

def extend (u : UniqueSources) (sources : List ConfigSource) : UniqueSources :=
  sources.foldl (fun u s => (u.push s).1) u

def ofList (sources : List ConfigSource) : UniqueSources := empty.extend sources

end UniqueSources
end Stevedore
