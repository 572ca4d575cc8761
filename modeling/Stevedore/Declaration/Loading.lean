import Stevedore.Declaration.Violation
import Stevedore.File.Tree
import Stevedore.Text.Quoted

/-! Where deployment files are found, and declarations loaded from them. -/
namespace Stevedore

/-- What a program is told by the system that starts it. -/
structure Surroundings where
  environment : List (String × String)
  accountHome : Option Path

namespace Surroundings

def configPathVariable : String := "FLEETYARD_CONFIG_PATH"

def stagingRootVariable : String := "FLEETYARD_STAGING_ROOT"

def value? (s : Surroundings) (name : String) : Option String := s.environment.lookup name

/-- The home directory by its variable, or else by the account where that is empty. -/
def home? (s : Surroundings) : Option Path :=
  (((s.value? "HOME").filter fun h => !h.isEmpty).map Path.mk).or s.accountHome

def ownDirectory (home : Path) : Path := home.join ".fleetyard"

def defaultStagingRoot (s : Surroundings) : Path :=
  (ownDirectory (s.home?.getD ⟨"."⟩)).join "staging"

def configPaths (s : Surroundings) : List Path :=
  (s.value? configPathVariable).toList.map Path.mk ++ [⟨"fleetyard.yaml"⟩] ++
    s.home?.toList.map fun home => (ownDirectory home).join "config.yaml"

def discover? (s : Surroundings) (tree : File.Tree) : Option Path :=
  s.configPaths.find? tree.exists?

end Surroundings

inductive LoadError where
  | read (path : Path) (fault : File.Fault)
  | unfit
  | notFound
  | invalid (violation : Violation)
  deriving DecidableEq

def LoadError.message : LoadError → String
  | .read path fault =>
    "Failed to read deployment file " ++ Text.quoted path.text ++ ": " ++ fault.message
  | .unfit => "Failed to parse deployment file"
  | .notFound =>
    "No deployment file found (set FLEETYARD_CONFIG_PATH or create ./fleetyard.yaml)"
  | .invalid v => v.message

namespace Declaration

/-- A staging root in the surroundings comes before the declared one, unless it is blank. -/
def override (d : Declaration) (s : Surroundings) : Declaration :=
  match s.value? Surroundings.stagingRootVariable with
  | some root => if Text.isBlankText root then d else { d with stagingRoot := some ⟨root⟩ }
  | none => d

def stagingRootIn (d : Declaration) (s : Surroundings) : Path :=
  d.stagingRoot.getD s.defaultStagingRoot

def parse (text : String) : Except LoadError Declaration :=
  match ofYaml? text with
  | some d => .ok d
  | none => .error .unfit

def readFile (tree : File.Tree) (path : Path) : Except LoadError Declaration :=
  match tree.readText path with
  | .error fault => .error (.read path fault)
  | .ok text => parse text

def validate (d : Declaration) : Except LoadError Unit :=
  match d.violation? with
  | some v => .error (.invalid v)
  | none => .ok ()

/-- The declaration at a path, or at the first of the usual places that exists. -/
def load (s : Surroundings) (tree : File.Tree) (path : Option Path) :
    Except LoadError Declaration := do
  let path ← match path.or (s.discover? tree) with
    | some path => .ok path
    | none => .error .notFound
  let d := (← readFile tree path).override s
  d.validate
  return d

end Declaration
end Stevedore
