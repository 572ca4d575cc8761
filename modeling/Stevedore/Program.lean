import Stevedore.CommandLine.Invocation
import Stevedore.LogFilter

/-! The whole program, from the words of its command line to its exit code. -/
namespace Stevedore

structure Outcome where
  exitCode : Nat
  output : String
  failure : Failure
  tree : File.Tree

namespace Program
open CommandLine

def version : String := "0.4.0"

def versionLine (l : Level) : String := l.title ++ " " ++ version ++ "\n"

def badUsage : Failure := [.message "Bad usage"]

def stopped (tree : File.Tree) : Stop → Outcome
  | .usage => { exitCode := 2, output := "", failure := badUsage, tree }
  | .help => { exitCode := 0, output := "", failure := [], tree }
  | .version l => { exitCode := 0, output := versionLine l, failure := [], tree }

def filterFailure : Failure := [.message "Failed to create log filter"]

def carriedOut (surroundings : Surroundings) (tree : File.Tree) (i : Invocation) : Outcome :=
  if LogFilter.canBeMade (surroundings.value? "RUST_LOG") i.logLevel then
    let (r, s) := (i.command.perform surroundings i.config).run { tree, output := "" }
    match r with
    | .ok () => { exitCode := 0, output := s.output, failure := [], tree := s.tree }
    | .error f => { exitCode := 1, output := s.output, failure := f, tree := s.tree }
  else { exitCode := 1, output := "", failure := filterFailure, tree }

def run (surroundings : Surroundings) (tree : File.Tree) (words : List String) : Outcome :=
  match CommandLine.read surroundings.value? words with
  | .error s => stopped tree s
  | .ok i => carriedOut surroundings tree i

end Program
end Stevedore
