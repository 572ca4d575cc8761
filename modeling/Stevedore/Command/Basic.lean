import Stevedore.Cluster.Kubectl
import Stevedore.Command.Render
import Stevedore.Command.Summary
import Stevedore.Declaration.Sample

/-! The commands of the program. -/
namespace Stevedore

inductive Command where
  | render (options : RenderOptions)
  | connect (service kubectl : String)
  | summarize (withPaths : Bool)
  | validate (file : Option Path)
  | generate (output : Path)
  deriving DecidableEq

namespace Step

def connect (surroundings : Surroundings) (config : Option Path) (name kubectl : String) :
    Step Unit := do
  let (_, plan) ← planned surroundings config
  let service ← serviceNamed plan name
  let k : Kubectl := { binary := kubectl, account := plan.deployment.account }
  let line ← require (k.connect service plan.resolved) fun e =>
    .message ("Failed to build connect command for " ++ name) :: e.causes
  printLine line

def generate (output : Path) : Step Unit := do
  change ("Failed to write deployment file to " ++ Text.quoted output.text) fun tree =>
    tree.write output Declaration.sample.toUTF8.toList
  printLine ("✓ Deployment file generated: " ++ output.text)

end Step

namespace Command

def perform (c : Command) (surroundings : Surroundings) (config : Option Path) : Step Unit :=
  match c with
  | .render options => Step.render surroundings config options
  | .connect service kubectl => Step.connect surroundings config service kubectl
  | .summarize withPaths => Step.summarize surroundings config withPaths
  | .validate file => Step.validate surroundings (file.or config)
  | .generate output => Step.generate output

end Command
end Stevedore
