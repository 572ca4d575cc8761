import Stevedore.Assembly
import Stevedore.Bundle.Secret
import Stevedore.Command.Session

/-! The manifests and secrets of a deployment, printed or written to a directory. -/
namespace Stevedore

structure RenderOptions where
  service : Option String
  output : Option Path
  templates : Option Path
  deriving DecidableEq

structure Rendering where
  manifests : List ServiceManifests
  secrets : SecretState

namespace Rendering

def secretDocument (s : Secret) : String := "---\n" ++ s.manifest

def documents (secrets : List Secret) : String := String.join (secrets.map secretDocument)

def streamOf (secrets : SecretState) (m : ServiceManifests) : String :=
  m.stream ++ documents (SecretStore.secretsFor secrets m.service)

end Rendering

namespace Step

def writeFile (path : Path) (text : String) : Step Path := do
  change ("Failed to write " ++ path.text) fun tree => tree.write path text.toUTF8.toList
  return path

def writeService (directory : Path) (secrets : List Secret) (m : ServiceManifests) :
    Step (List Path) := do
  let path ← writeFile (directory.join (m.service ++ ".yml")) m.stream
  let text := Rendering.documents (secrets.filter fun s => s.service = m.service)
  if text.isEmpty then return [path]
  let secretsPath ← writeFile (directory.join (m.service ++ "-secrets.yml")) text
  return [path, secretsPath]

/-- Writes everything into a directory, which is made if need be; gives the paths in order. -/
def writeManifests (directory : Path) (manifests : List ServiceManifests)
    (secrets : List Secret) : Step (List Path) := do
  change ("Failed to create output directory " ++ directory.text) fun tree =>
    tree.makeAllDirectories directory
  let paths ← manifests.mapM (writeService directory secrets)
  return paths.flatten

def templatesFrom (directory : Option Path) : Step TemplateSet := do
  match directory with
  | none => return .embedded
  | some directory =>
    require (TemplateSet.withOverrides (← get).tree directory) fun e =>
      [.message "Failed to load manifest templates", .template e]

/-- The services to render, in the order of their declaration. -/
def selected (plan : Plan) (name : Option String) : Step (List Service) :=
  match name with
  | some name => do return [← serviceNamed plan name]
  | none => require (enabledServices plan.services plan.resolved) DeployError.causes

/-- Assembles services one after another, with secrets from the files as they are. -/
def assembled (templates : TemplateSet) (plan : Plan) (services : List Service) :
    Step Rendering := do
  let a : Assembler SecretState := ⟨templates, .secrets (← get).tree, plan.rules⟩
  let (r, secrets) :=
    (services.mapM fun s => a.assemble s plan.deployment plan.resolved).run Table.empty
  return { manifests := ← require r DeployError.causes, secrets }

def render (surroundings : Surroundings) (config : Option Path) (o : RenderOptions) :
    Step Unit := do
  let (_, plan) ← planned surroundings config
  let templates ← templatesFrom o.templates
  let services ← selected plan o.service
  let r ← assembled templates plan services
  match o.output with
  | some directory =>
    let paths ← writeManifests directory r.manifests r.secrets.values
    printLines (paths.map fun p => "✓ Wrote " ++ p.text)
  | none => print (String.join (r.manifests.map (Rendering.streamOf r.secrets)))

end Step
end Stevedore
