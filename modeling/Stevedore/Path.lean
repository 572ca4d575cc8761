/-!
Paths as text. A path is read as components: runs of slashes and a `.` between slashes count for
nothing, a leading `/` is the root, and a leading `.` is a component of its own.
-/
namespace Stevedore

structure Path where
  text : String
  deriving DecidableEq, Inhabited

namespace Path

inductive Component where
  | root
  | here
  | up
  | name (text : List Char)
  deriving DecidableEq

/-- The pieces between slashes, at least one. -/
def pieces : List Char → List (List Char)
  | [] => [[]]
  | c :: rest =>
    if c = '/' then [] :: pieces rest
    else
      match pieces rest with
      | [] => [[c]]
      | first :: others => (c :: first) :: others

def isIdle (piece : List Char) : Bool := piece = [] || piece = ['.']

/-- The start of a path, before its body: a slash, a dot or nothing. -/
def head : List Char → List Char
  | '/' :: _ => ['/']
  | ['.'] => ['.']
  | '.' :: '/' :: _ => ['.']
  | _ => []

/-- The pieces after the start. -/
def body (cs : List Char) : List (List Char) := pieces (cs.drop (head cs).length)

def componentOf (piece : List Char) : Component :=
  if piece = ['.', '.'] then .up else .name piece

def headComponents (cs : List Char) : List Component :=
  match head cs with
  | ['/'] => [.root]
  | ['.'] => [.here]
  | _ => []

def components (p : Path) : List Component :=
  headComponents p.text.toList ++
    ((body p.text.toList).filter fun piece => !isIdle piece).map componentOf

def fileName? (p : Path) : Option String :=
  match p.components.getLast? with
  | some (.name text) => some (String.ofList text)
  | _ => none

/-- The last piece that names something and the idle ones around it are taken away; none when no
piece names something. -/
def withoutLast (parts : List (List Char)) : Option (List (List Char)) :=
  match parts.reverse.dropWhile isIdle with
  | [] => none
  | _ :: before => some (before.dropWhile isIdle).reverse

def joinPieces : List (List Char) → List Char
  | [] => []
  | [piece] => piece
  | piece :: rest => piece ++ '/' :: joinPieces rest

/-- The path as written up to the end of the component before the last. -/
def parent? (p : Path) : Option Path :=
  let cs := p.text.toList
  match withoutLast (body cs) with
  | some parts => some ⟨String.ofList (head cs ++ joinPieces parts)⟩
  | none => if head cs = ['.'] then some ⟨""⟩ else none

def directory (p : Path) : String :=
  match p.parent? with
  | some parent => if parent.text.isEmpty then "/" else parent.text
  | none => "/"

/-- A path without the slashes at its end, except for the root. -/
def dropSlashes (cs : List Char) : List Char :=
  match (cs.reverse.dropWhile (· = '/')).reverse with
  | [] => cs.take 1
  | rest => rest

def isAbsolute (p : Path) : Bool := p.text.toList.head? == some '/'

/-- The path `q` seen from `p`: an absolute `q` stands for itself, and one slash is put between
unless `p` is empty or ends in one. -/
def join (p : Path) (q : String) : Path :=
  if (⟨q⟩ : Path).isAbsolute || p.text.isEmpty then ⟨q⟩
  else if p.text.toList.getLast? = some '/' then ⟨p.text ++ q⟩
  else ⟨p.text ++ "/" ++ q⟩

end Path
end Stevedore
