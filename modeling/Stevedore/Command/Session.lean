import Stevedore.Declaration.Loading
import Stevedore.Declaration.Resolution

/-! What commands print and write, and how their failures are told. -/
namespace Stevedore

structure Session where
  tree : File.Tree
  output : String

/-- One part of what is told about a failure. -/
inductive Cause where
  | message (text : String)
  /-- A text is no declaration. -/
  | unfit
  | template (error : TemplateError)
  deriving DecidableEq

/-- A failure is told from the outermost circumstance to the innermost cause. -/
abbrev Failure := List Cause

def Cause.text : Cause → String
  | .message text => text
  | .unfit => LoadError.unfit.message
  | .template e => e.message

def LoadError.causes (e : LoadError) : Failure :=
  match e with
  | .read _ fault => [.message e.message, .message fault.message]
  | .unfit => [.unfit]
  | _ => [.message e.message]

def DeployError.causes (e : DeployError) : Failure := e.chain.map .message

/-- A part of a command. What it printed and wrote before a failure stays. -/
abbrev Step (α : Type) := ExceptT Failure (StateM Session) α

namespace Step
variable {α ε : Type}

def fail (f : Failure) : Step α := throw f

def print (text : String) : Step Unit :=
  modify fun s => { s with output := s.output ++ text }

def printLine (line : String) : Step Unit := print (line ++ "\n")

def printLines (lines : List String) : Step Unit := lines.forM printLine

/-- The value of `r`, or a failure with what is told about its error. -/
def require (r : Except ε α) (told : ε → Failure) : Step α :=
  match r with
  | .ok v => pure v
  | .error e => fail (told e)

/-- Changes the tree, or fails in the given circumstance. -/
def change (circumstance : String) (f : File.Tree → Except File.Fault File.Tree) : Step Unit := do
  let s ← get
  let tree ← require (f s.tree) fun fault => [.message circumstance, .message fault.message]
  set { s with tree }

def declared (surroundings : Surroundings) (config : Option Path) : Step Declaration := do
  let s ← get
  require (Declaration.load surroundings s.tree config) fun e =>
    .message "Failed to load deployment file" :: e.causes

def planned (surroundings : Surroundings) (config : Option Path) : Step (Declaration × Plan) := do
  let d ← declared surroundings config
  let plan ← require (d.resolve surroundings.defaultStagingRoot) fun e =>
    .message "Failed to resolve deployment file" :: e.causes
  return (d, plan)

def undeclared (name : String) : Failure :=
  [.message ("Service '" ++ name ++ "' is not declared in the deployment file")]

def serviceNamed (plan : Plan) (name : String) : Step Service :=
  match plan.service? name with
  | some service => pure service
  | none => fail (undeclared name)

end Step
end Stevedore
