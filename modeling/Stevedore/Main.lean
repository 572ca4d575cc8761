import Stevedore.Command.Reach
import Stevedore.Program

/-! The program itself: what a command may look at is fetched, and what it changed is written. -/
namespace Stevedore.Main
open File

/-- What is at a location; anything there that cannot be read as a file is a directory. -/
def look (tree : Tree) (l : Location) : IO Tree := do
  if (tree.entryAt l).isSome then return tree
  try
    let bytes ← IO.FS.readBinFile ("/" ++ "/".intercalate l)
    return tree.put l (.file bytes.toList)
  catch
    | .noFileOrDirectory _ _ _ => return tree
    | _ => return tree.put l .directory

def fetchFrom (tree : Tree) (l : Location) : List (List Char) → IO Tree
  | [] => return tree
  | piece :: rest =>
    if Path.isIdle piece then fetchFrom tree l rest
    else if piece = ['.', '.'] then fetchFrom tree l.dropLast rest
    else do
      let l := l ++ [String.ofList piece]
      let tree ← look tree l
      if tree.entryAt l = some .directory then fetchFrom tree l rest else return tree

def fetch (tree : Tree) (p : Path) : IO Tree :=
  fetchFrom tree (if p.isAbsolute then [] else tree.workingDirectory) (Path.pieces p.text.toList)

def store (before : Tree) (l : Location) (e : File.Entry) : IO Unit := do
  if before.entryAt l = some e then return
  let place := "/" ++ "/".intercalate l
  match e with
  | .directory => IO.FS.createDir place
  | .file bytes => IO.FS.writeBinFile place ⟨bytes.toArray⟩

def variableNames : List String :=
  ["HOME", Surroundings.configPathVariable, Surroundings.stagingRootVariable,
    "FLEETYARD_KUBECTL", "FLEETYARD_LOG_LEVEL", "RUST_LOG"]

def readSurroundings : IO Surroundings := do
  let environment ← variableNames.filterMapM fun name => do
    return (← IO.getEnv name).map fun value => (name, value)
  return { environment, accountHome := none }

def startTree : IO Tree := do
  let place := (← IO.currentDir).toString
  return .emptyAt (((Path.pieces place.toList).filter fun p => !Path.isIdle p).map String.ofList)

/-- Fetches what is known to be needed, and again what is then known to be. -/
def fetchAll (surroundings : Surroundings) (words : List String) (tree : Tree) : IO Tree := do
  match CommandLine.read surroundings.value? words with
  | .error _ => return tree
  | .ok i =>
    let reach := i.command.reach surroundings i.config
    let tree ← (reach tree).foldlM fetch tree
    (reach tree).foldlM fetch tree

def tell (f : Failure) : IO Unit := do
  for c in f do
    IO.eprintln c.text

end Stevedore.Main

open Stevedore in
def main (words : List String) : IO UInt32 := do
  let surroundings ← Main.readSurroundings
  let before ← Main.fetchAll surroundings words (← Main.startTree)
  let o := Program.run surroundings before words
  IO.print o.output
  for (l, e) in o.tree.entries.reverse do
    Main.store before l e
  Main.tell o.failure
  return UInt32.ofNat o.exitCode
