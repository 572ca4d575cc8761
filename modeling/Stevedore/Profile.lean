import Stevedore.Json.Document
import Stevedore.Path

/-! Rendered configuration files of a service and where they land in its container. -/
namespace Stevedore

structure Profile where
  /-- The name within its service, and of the file below the staging path. -/
  name : String
  outputFile : String
  env : Table String
  /-- Files the profile refers to, which are mounted as they are. -/
  requiredFiles : List String
  deriving DecidableEq

namespace Profile

def stagedFile (p : Profile) (stagingPath : Path) : Path := stagingPath.join p.name

def outputDirectory (p : Profile) : String := (⟨p.outputFile⟩ : Path).directory

def encode (p : Profile) : Json :=
  .record [("name", .text p.name), ("outputFile", .text p.outputFile), ("env", .textTable p.env),
    ("requiredFiles", .texts p.requiredFiles)]

def decode? {δ : Type} [Document δ] (d : δ) : Option Profile := do
  let fields ← Document.fields? ["name", "outputFile", "env", "requiredFiles"] d
  let name ← Document.required? fields "name" Document.text?
  let outputFile ← Document.required? fields "outputFile" Document.text?
  let env ← Document.defaulted? fields "env" .empty Document.textTable?
  let requiredFiles ← Document.defaulted? fields "requiredFiles" []
    (Document.listOf? Document.text?)
  return { name, outputFile, env, requiredFiles }

end Profile
end Stevedore
