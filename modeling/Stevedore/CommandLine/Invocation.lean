import Stevedore.CommandLine.Scan
import Stevedore.Command.Basic

/-! What the user asks of the program. -/
namespace Stevedore.CommandLine

structure Invocation where
  config : Option Path
  logLevel : String
  command : Command
  deriving DecidableEq

namespace Given

/-- Lets a variable stand in for a parameter that is not given. -/
def standIn (environment : String → Option String) (g : Given) (p : Parameter) :
    Except Stop Given :=
  match p.standIn.bind environment with
  | some value => if g.isGiven p then .ok g else g.count p ⟨value, false⟩
  | none => .ok g

def complete (environment : String → Option String) (l : Level) (g : Given) : Except Stop Given :=
  l.options.foldlM (standIn environment) g

def path? (g : Given) (p : Parameter) : Option Path := (g.value? p).map Path.mk

end Given

/-- The setting of a parameter that several levels have: the innermost one counts, but none from
a variable against one from the line. -/
def innermost (p : Parameter) (levels : List Given) : Option Setting :=
  levels.foldl (fun outer g =>
    match outer, g.setting? p with
    | some outer, some inner => if outer.onLine && !inner.onLine then some outer else some inner
    | outer, none => outer
    | none, inner => inner) none

def defaultOutput : Path := ⟨"fleetyard.yaml"⟩

def commandOf (l : Level) (g : Given) : Except Stop Command :=
  match l with
  | .render => .ok (.render
      { service := g.value? serviceOption, output := g.path? outputOption,
        templates := g.path? templatesOption })
  | .connect =>
    match g.value? serviceOption with
    | some service =>
      .ok (.connect service ((g.value? kubectlOption).getD Kubectl.defaultBinary))
    | none => .error .usage
  | .summary => .ok (.summarize (g.isGiven pathsFlag))
  | .validate => .ok (.validate (g.path? fileOperand))
  | .generate => .ok (.generate ((g.path? outputOption).getD defaultOutput))
  | .program | .config => .error .usage

def read (environment : String → Option String) (words : List String) : Except Stop Invocation := do
  let scanned ← scan .program .nothing words
  let levels ← scanned.mapM fun (l, g) => do return (l, ← g.complete environment l)
  let command ← match levels.getLast? with
    | some (l, g) => commandOf l g
    | none => .error .usage
  let given := levels.map (·.2)
  return {
    config := (innermost configOption given).map fun s => ⟨s.value⟩
    logLevel := ((innermost logLevelOption given).map (·.value)).getD "info"
    command }

end Stevedore.CommandLine
