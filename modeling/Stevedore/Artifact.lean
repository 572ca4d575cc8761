import Stevedore.Json.Document
import Stevedore.Text.Basic

/-! Versions and registries of artifacts, and the container images that they come to. -/
namespace Stevedore

/-- A reference to a container image. -/
structure Image where
  registry : String
  repository : String
  tag : String
  deriving DecidableEq

namespace Image

/-- A version of a local build is marked, and the mark is not part of the tag. -/
def tagOf (version : String) : String :=
  match version.toList with
  | 'l' :: 'o' :: 'c' :: 'a' :: 'l' :: ':' :: tag => String.ofList tag
  | _ => version

def of (registry repository version : String) : Image :=
  { registry, repository, tag := tagOf version }

/-- Slashes at the end of the registry do not count. -/
def text (image : Image) : String :=
  let registry := String.ofList (Text.dropEnd (· = '/') image.registry.toList)
  if registry.isEmpty then image.repository ++ ":" ++ image.tag
  else registry ++ "/" ++ image.repository ++ ":" ++ image.tag

end Image

structure ArtifactPin where
  version : Option String
  registry : Option String
  deriving DecidableEq

namespace ArtifactPin

def encode (p : ArtifactPin) : Json :=
  .record (Json.field? "version" .text p.version ++ Json.field? "registry" .text p.registry)

def decode? {δ : Type} [Document δ] (d : δ) : Option ArtifactPin := do
  let fields ← Document.fields? ["version", "registry"] d
  let version ← Document.optional? fields "version" Document.text?
  let registry ← Document.optional? fields "registry" Document.text?
  return { version, registry }

end ArtifactPin

structure ArtifactSource where
  version? : (deployment artifact : String) → Option String
  registry : (deployment artifact : String) → String

namespace ArtifactSource

def image? (source : ArtifactSource) (deployment artifact : String) : Option Image :=
  (source.version? deployment artifact).map fun version =>
    Image.of (source.registry deployment artifact) artifact version

end ArtifactSource

/-- The artifacts of one deployment: a pin comes before the common version and registry. -/
structure Catalog where
  registry : String
  version : Option String
  pins : Table ArtifactPin
  deriving DecidableEq

namespace Catalog

def empty : Catalog := { registry := "", version := none, pins := .empty }

def versionOf? (c : Catalog) (artifact : String) : Option String :=
  ((c.pins.get? artifact).bind (·.version)).or c.version

def registryOf (c : Catalog) (artifact : String) : String :=
  ((c.pins.get? artifact).bind (·.registry)).getD c.registry

/-- A catalog serves whatever deployment asks. -/
def source (c : Catalog) : ArtifactSource :=
  { version? := fun _ artifact => c.versionOf? artifact
    registry := fun _ artifact => c.registryOf artifact }

def encode (c : Catalog) : Json :=
  .record ([("registry", .text c.registry)] ++ Json.field? "version" .text c.version ++
    [("pins", .ofTable (c.pins.mapValues ArtifactPin.encode))])

def decode? {δ : Type} [Document δ] (d : δ) : Option Catalog := do
  let fields ← Document.fields? ["registry", "version", "pins"] d
  let registry ← Document.defaulted? fields "registry" "" Document.text?
  let version ← Document.optional? fields "version" Document.text?
  let pins ← Document.defaulted? fields "pins" .empty (Document.tableOf? ArtifactPin.decode?)
  return { registry, version, pins }

end Catalog
end Stevedore
