import Stevedore.CommandLine.Level

/-!
Command lines read word by word. A value that stands apart from its option counts when the next
option comes, or at the end; a value that starts with a dash is none.
-/
namespace Stevedore.CommandLine

inductive Stop where
  | usage
  | help
  | version (l : Level)
  deriving DecidableEq

structure Setting where
  value : String
  onLine : Bool
  deriving DecidableEq

structure Given where
  settings : List (String × Setting)
  /-- The last parameter while it does not count yet; without a value it waits for one. -/
  pending : Option (Parameter × Option String)
  /-- Whether a divider was read, after which there are only operands. -/
  operandsOnly : Bool
  deriving DecidableEq

namespace Given

def nothing : Given := { settings := [], pending := none, operandsOnly := false }

def setting? (g : Given) (p : Parameter) : Option Setting := g.settings.lookup p.name

def value? (g : Given) (p : Parameter) : Option String := (g.setting? p).map (·.value)

def isGiven (g : Given) (p : Parameter) : Bool := (g.setting? p).isSome

/-- No parameter counts twice at one level. -/
def count (g : Given) (p : Parameter) (s : Setting) : Except Stop Given :=
  if g.isGiven p then .error .usage
  else if p.takes = .path && s.value.isEmpty then .error .usage
  else .ok { g with settings := (p.name, s) :: g.settings }

/-- Lets the pending parameter count. -/
def settle (g : Given) : Except Stop Given :=
  match g.pending with
  | none => .ok g
  | some (_, none) => .error .usage
  | some (p, some value) => { g with pending := none }.count p ⟨value, true⟩

/-- An option together with its value. -/
def takeJoined (g : Given) (p : Parameter) (value : List Char) : Except Stop Given := do
  (← g.settle).count p ⟨String.ofList value, true⟩

def takeAlone (g : Given) (p : Parameter) : Except Stop Given := do
  let g ← g.settle
  if p.takes = .nothing then g.count p ⟨"", true⟩
  else .ok { g with pending := some (p, none) }

def takeOperand (l : Level) (g : Given) (word : String) : Except Stop Given := do
  let g ← g.settle
  match l.operand? with
  | none => .error .usage
  | some p => if g.isGiven p then .error .usage else .ok { g with pending := some (p, some word) }

/-- An inquiry ends the reading once what came before it counts. -/
def inquire (g : Given) (s : Stop) : Except Stop Given := do
  discard g.settle
  .error s

def takeLong (l : Level) (g : Given) (name : String) (value : Option (List Char)) :
    Except Stop Given :=
  match l.optionNamed? name, value with
  | some p, some value => if p.takes = .nothing then .error .usage else g.takeJoined p value
  | some p, none => g.takeAlone p
  | none, some _ => .error .usage
  | none, none =>
    if name = "help" then g.inquire .help
    else if name = "version" then g.inquire (.version l)
    else .error .usage

/-- Letters after one dash: each an option, until one takes what follows as its value. -/
def takeLetters (l : Level) (g : Given) : List Char → Except Stop Given
  | [] => .ok g
  | letter :: rest =>
    match l.optionLettered? letter with
    | none =>
      if letter = 'h' then g.inquire .help
      else if letter = 'V' then g.inquire (.version l)
      else .error .usage
    | some p =>
      if p.takes = .nothing then do takeLetters l (← g.takeAlone p) rest
      else
        match rest with
        | [] => g.takeAlone p
        | '=' :: value => g.takeJoined p value
        | value => g.takeJoined p value

/-- A word that starts with no dash, or is nothing but one. -/
def takePlain (l : Level) (g : Given) (word : String) : Except Stop Given :=
  match g.pending with
  | some (p, none) => .ok { g with pending := some (p, some word) }
  | _ => g.takeOperand l word

def take (l : Level) (g : Given) (word : String) : Except Stop Given :=
  if g.operandsOnly then g.takeOperand l word
  else
    match word.toList with
    | ['-', '-'] => .ok { g with operandsOnly := true }
    | '-' :: '-' :: rest =>
      let value := match rest.dropWhile (· != '=') with
        | [] => none
        | _ :: value => some value
      g.takeLong l (String.ofList (rest.takeWhile (· != '='))) value
    | '-' :: letter :: rest => g.takeLetters l (letter :: rest)
    | _ => g.takePlain l word

/-- Whether the next word may name a subcommand. -/
def isOpen (g : Given) : Bool :=
  !g.operandsOnly && match g.pending with
    | some (_, none) => false
    | _ => true

end Given

/-- Help may be asked for any level below one that has subcommands. -/
def helpOn (l : Level) : List String → Stop
  | [] => .help
  | word :: rest =>
    match l.subcommands.lookup word with
    | some inner => helpOn inner rest
    | none => .usage

/-- What is given at each level, from the outermost on. -/
def scan (l : Level) (g : Given) : List String → Except Stop (List (Level × Given))
  | [] => do
    if !l.subcommands.isEmpty then .error .usage
    else return [(l, ← g.settle)]
  | word :: rest =>
    let inner := if g.isOpen then l.subcommands.lookup word else none
    match inner with
    | some inner => do
      let below ← scan inner .nothing rest
      return (l, ← g.settle) :: below
    | none => do
      if g.isOpen && !l.subcommands.isEmpty && word = "help" then .error (helpOn l rest)
      else scan l (← g.take l word) rest

end Stevedore.CommandLine
