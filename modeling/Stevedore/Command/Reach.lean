import Stevedore.Command.Basic

/-! The files and directories that a command may look at, so that no others need be known. -/
namespace Stevedore

namespace Plan

def profiles (p : Plan) : List Profile := p.resolved.profiles.values.flatMap Table.values

def stagedPaths (p : Plan) : List Path :=
  p.profiles.flatMap fun profile =>
    profile.stagedFile p.deployment.stagingPath :: profile.requiredFiles.map Path.mk

/-- The files that a plan's rendering may write below a directory. -/
def outputPaths (p : Plan) (directory : Path) : List Path :=
  directory :: p.services.flatMap fun s =>
    [directory.join (s.canonicalName ++ ".yml"), directory.join (s.canonicalName ++ "-secrets.yml")]

end Plan

namespace Command

def configOf (c : Command) (config : Option Path) : Option Path :=
  match c with
  | .validate file => file.or config
  | _ => config

/-- Where a command looks for a deployment file, and what else it may look at once that is
known. -/
def reach (c : Command) (surroundings : Surroundings) (config : Option Path) (tree : File.Tree) :
    List Path :=
  let config := c.configOf config
  let files := (config.map fun path => [path]).getD surroundings.configPaths
  let plan := ((Declaration.load surroundings tree config).toOption.bind fun d =>
    (d.resolve surroundings.defaultStagingRoot).toOption)
  match c with
  | .render o =>
    let templates := o.templates.toList.flatMap fun directory =>
      Manifest.Fragment.all.map fun f => directory.join f.fileName
    let outputs := o.output.toList.flatMap fun directory =>
      (plan.map fun p => p.outputPaths directory).getD [directory]
    files ++ templates ++ outputs ++ (plan.map Plan.stagedPaths).getD []
  | .generate output => [output]
  | _ => files

end Command
end Stevedore
