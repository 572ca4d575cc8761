import Stevedore.Path

/-! A tree of files and directories with a working directory, and what programs do with it. -/
namespace Stevedore.File

/-- Why a file could not be read or written. -/
inductive Fault where
  | notFound
  | alreadyExists
  | notADirectory
  | isADirectory
  | nameTooLong
  | notText
  | nulInName
  deriving DecidableEq

def Fault.message : Fault → String
  | .notFound => "No such file or directory (os error 2)"
  | .alreadyExists => "File exists (os error 17)"
  | .notADirectory => "Not a directory (os error 20)"
  | .isADirectory => "Is a directory (os error 21)"
  | .nameTooLong => "File name too long (os error 36)"
  | .notText => "stream did not contain valid UTF-8"
  | .nulInName => "file name contained an unexpected NUL byte"

inductive Entry where
  | file (bytes : List UInt8)
  | directory
  deriving DecidableEq

/-- Names from the root down. -/
abbrev Location := List String

structure Tree where
  entries : List (Location × Entry)
  workingDirectory : Location

namespace Tree

/-- What is at a location; the root and the way to the working directory are directories. -/
def entryAt (t : Tree) (l : Location) : Option Entry :=
  if l.isPrefixOf t.workingDirectory then some .directory else t.entries.lookup l

def put (t : Tree) (l : Location) (e : Entry) : Tree :=
  { t with entries := (l, e) :: t.entries.filter (fun p => p.1 != l) }

def emptyAt (l : Location) : Tree := ⟨[], l⟩

def requireDirectory (t : Tree) (l : Location) : Except Fault Unit :=
  match t.entryAt l with
  | some .directory => .ok ()
  | some (.file _) => .error .notADirectory
  | none => .error .notFound

/-- Follows the pieces of a path. Each step starts from a directory; the last name need not
exist. -/
def walk (t : Tree) (l : Location) : List (List Char) → Except Fault Location
  | [] => .ok l
  | piece :: rest => do
    t.requireDirectory l
    if Path.isIdle piece then t.walk l rest
    else if piece = ['.', '.'] then t.walk l.dropLast rest
    else if 255 < (String.ofList piece).utf8ByteSize then .error .nameTooLong
    else t.walk (l ++ [String.ofList piece]) rest

def locate (t : Tree) (p : Path) : Except Fault Location :=
  let cs := p.text.toList
  if cs.any (fun c => c.toNat == 0) then .error .nulInName
  else if cs.isEmpty then .error .notFound
  else if 4095 < p.text.utf8ByteSize then .error .nameTooLong
  else t.walk (if p.isAbsolute then [] else t.workingDirectory) (Path.pieces cs)

def exists? (t : Tree) (p : Path) : Bool :=
  match t.locate p with
  | .ok l => (t.entryAt l).isSome
  | .error _ => false

def isDirectory (t : Tree) (p : Path) : Bool :=
  match t.locate p with
  | .ok l => t.entryAt l == some .directory
  | .error _ => false

def isFile (t : Tree) (p : Path) : Bool :=
  match t.locate p with
  | .ok l => match t.entryAt l with
    | some (.file _) => true
    | _ => false
  | .error _ => false

def read (t : Tree) (p : Path) : Except Fault (List UInt8) := do
  match t.entryAt (← t.locate p) with
  | some (.file bytes) => .ok bytes
  | some .directory => .error .isADirectory
  | none => .error .notFound

def decode (bytes : List UInt8) : Except Fault String :=
  match String.fromUTF8? ⟨bytes.toArray⟩ with
  | some s => .ok s
  | none => .error .notText

def readText (t : Tree) (p : Path) : Except Fault String := do
  decode (← t.read p)

def endsInSlash (p : Path) : Bool := p.text.toList.getLast? == some '/'

def write (t : Tree) (p : Path) (bytes : List UInt8) : Except Fault Tree := do
  let cs := p.text.toList
  let l ← t.locate ⟨String.ofList (Path.dropSlashes cs)⟩
  match t.entryAt l with
  | some .directory => .error .isADirectory
  | some (.file _) => if endsInSlash p then .error .isADirectory else .ok (t.put l (.file bytes))
  | none =>
    t.requireDirectory l.dropLast
    if endsInSlash p then .error .isADirectory else .ok (t.put l (.file bytes))

def makeDirectory (t : Tree) (p : Path) : Except Fault Tree := do
  let l ← t.locate ⟨String.ofList (Path.dropSlashes p.text.toList)⟩
  if (t.entryAt l).isSome then .error .alreadyExists
  else
    t.requireDirectory l.dropLast
    .ok (t.put l .directory)

/-- Makes a directory, tolerating one that is there. -/
def ensureDirectory (t : Tree) (p : Path) : Except Fault Tree :=
  match t.makeDirectory p with
  | .ok t => .ok t
  | .error fault => if t.isDirectory p then .ok t else .error fault

/-- Makes a directory and those above it; each parent is shorter than its path. -/
def makeDirectories (t : Tree) : Nat → Path → Except Fault Tree
  | 0, _ => .error .notFound
  | fuel + 1, p =>
    if p.text.isEmpty then .ok t
    else
      match t.makeDirectory p with
      | .error .notFound =>
        match p.parent? with
        | none => .error .notFound
        | some parent => do
          let t ← t.makeDirectories fuel parent
          t.ensureDirectory p
      | _ => t.ensureDirectory p

def makeAllDirectories (t : Tree) (p : Path) : Except Fault Tree :=
  t.makeDirectories (p.text.length + 1) p

end Tree
end Stevedore.File
