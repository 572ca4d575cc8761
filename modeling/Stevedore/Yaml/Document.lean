import Stevedore.Document.Basic
import Stevedore.Yaml.Node
import Stevedore.Yaml.Scalar

/-! YAML nodes as documents. -/
namespace Stevedore.Yaml

/-- A node seen from above: at most `depth` collections may still open on the way down. -/
structure View where
  graph : Graph
  depth : Nat
  node : Node

/-- Tags that start so are a program's own. -/
def ownTag? (tag : NodeTag) : Option (List Char) :=
  match tag with
  | some ['!'] => some ['!']
  | some ('!' :: name) => some name
  | _ => none

def coreTag (name : String) : NodeTag := some ("tag:yaml.org,2002:".toList ++ name.toList)

/-- A binary fraction that is no finite number is null. -/
def jsonOfFloat (x : Binary64) : Json := if x.isFinite then .float x else .null

def jsonOfPlain (cs : List Char) : Option Json :=
  match resolve cs with
  | .null => some .null
  | .flag b => some (.bool b)
  | .integer n => some (.integer n)
  | .outsize => none
  | .float x => some (jsonOfFloat x)
  | .text => some (.text (String.ofList cs))

/-- The value of a scalar of any type: by its tag, or else by its text where it is plain. -/
def jsonOfScalar (tag : NodeTag) (style : ScalarStyle) (cs : List Char) : Option Json :=
  if (ownTag? tag).isSome then none
  else if tag = coreTag "bool" then (flag? cs).map .bool
  else if tag = coreTag "int" then
    match wholeNumber? cs with
    | some (.integer n) => some (.integer n)
    | _ => none
  else if tag = coreTag "float" then (float? cs).map jsonOfFloat
  else if tag = coreTag "null" then (if isNull cs then some .null else none)
  else if tag.isNone && style = .plain then jsonOfPlain cs
  else some (.text (String.ofList cs))

/-- The node that an alias stands for; every alias uses up one of `budget`. -/
def Graph.resolve (g : Graph) (node : Node) (budget : Nat) : Option (Node × Nat) :=
  match node with
  | .alias n =>
    match budget with
    | 0 => none
    | budget + 1 => (g.find? n).map fun node => (node, budget)
  | node => some (node, budget)

/-- The text of a scalar that serves as a key. -/
def Graph.keyText (g : Graph) (node : Node) (budget : Nat) : Option (String × Nat) :=
  match g.resolve node budget with
  | some (.scalar _ _ text, budget) => some (String.ofList text, budget)
  | _ => none

/-- Reads one after another, with what is left of the budget. -/
def readEach {α β : Type} (read : α → Nat → Option (β × Nat)) (items : List α) (budget : Nat) :
    Option (List β × Nat) :=
  match items with
  | [] => some ([], budget)
  | item :: rest =>
    match read item budget with
    | none => none
    | some (v, budget) => (readEach read rest budget).map fun (vs, budget) => (v :: vs, budget)

/-- A node of any type as JSON. With `keys` all keys have to be texts; without, they may be any
nodes that can be read, and only texts are kept. -/
def Graph.readAny (g : Graph) (keys : Bool) : Nat → Node → Nat → Option (Json × Nat)
  | 0, node, budget =>
    match g.resolve node budget with
    | some (.scalar tag style text, budget) => (jsonOfScalar tag style text).map (·, budget)
    | _ => none
  | depth + 1, node, budget =>
    match g.resolve node budget with
    | some (.scalar tag style text, budget) => (jsonOfScalar tag style text).map (·, budget)
    | some (.sequence tag items, budget) =>
      if (ownTag? tag).isSome then none
      else (readEach (g.readAny keys depth) items budget).map fun (vs, budget) => (.list vs, budget)
    | some (.mapping tag entries, budget) =>
      if (ownTag? tag).isSome then none
      else
        let readEntry (e : Node × Node) (budget : Nat) : Option ((String × Json) × Nat) :=
          let key := if keys then g.keyText e.1 budget
            else (g.readAny keys depth e.1 budget).map fun (k, budget) => ((k.text?).getD "", budget)
          match key with
          | none => none
          | some (key, budget) =>
            (g.readAny keys depth e.2 budget).map fun (v, budget) => ((key, v), budget)
        (readEach readEntry entries budget).map fun (fields, budget) =>
          (Json.ofFields fields, budget)
    | _ => none

namespace View

-- the powers of the core library, whatever else is imported
attribute [local instance (high)] instPowNat

/-- The whole of a document; 128 collections may be nested. -/
def ofGraph (g : Graph) : View := ⟨g, 128, g.root⟩

/-- Aliases may be followed a hundred times for each part of a document. -/
def budget (v : View) : Nat := 100 * v.graph.size

def resolved (v : View) : Option Node := (v.graph.resolve v.node v.budget).map (·.1)

def text? (v : View) : Option String :=
  match v.resolved with
  | some (.scalar _ _ text) => some (String.ofList text)
  | _ => none

/-- A node that holds nothing stands for an empty collection. -/
def isEmptyPlain : Node → Bool
  | .scalar _ .plain [] => true
  | _ => false

/-- A scalar that may be read as a number or flag: plain, or in a block with the tag for it. -/
def bareText? (tagName : String) : Node → Option (List Char)
  | .scalar _ .plain text => some text
  | .scalar tag .literal text => if tag = coreTag tagName then some text else none
  | _ => none

def natural? (v : View) : Option Nat :=
  (v.resolved.bind (bareText? "int")).bind fun cs => (unsigned? cs).filter (· < 2 ^ (64 : Nat))

def flag? (v : View) : Option Bool := (v.resolved.bind (bareText? "bool")).bind Yaml.flag?

/-- Plain scalars that are empty or name null are unset. -/
def setting? (v : View) : Option (Option View) :=
  match v.resolved with
  | none => none
  | some (.scalar tag .plain text) =>
    if tag = coreTag "null" then (if isNull text then some none else none)
    else if tag.isSome then some (some v)
    else if text.isEmpty || isNull text then some none
    else some (some v)
  | some _ => some (some v)

/-- A word is the text of a scalar, or a tag of its own on a scalar that holds nothing. -/
def word? (v : View) : Option String :=
  match v.resolved with
  | some (.scalar tag style text) =>
    match ownTag? tag with
    | some name =>
      if style = .plain && (text.isEmpty || isNull text) then some (String.ofList name) else none
    | none => some (String.ofList text)
  | _ => none

def below (v : View) (node : Node) : Option View :=
  if v.depth = 0 then none else some { v with depth := v.depth - 1, node }

def items? (v : View) : Option (List View) :=
  match v.resolved with
  | some (.sequence _ items) => if v.depth = 0 then none else items.mapM v.below
  | some node => if isEmptyPlain node then some [] else none
  | none => none

def entryOf (v : View) (e : Node × Node) : Option (String × View) :=
  match v.graph.keyText e.1 v.budget, v.below e.2 with
  | some (key, _), some value => some (key, value)
  | _, _ => none

def entries? (v : View) : Option (List (String × View)) :=
  match v.resolved with
  | some (.mapping _ entries) => if v.depth = 0 then none else entries.mapM v.entryOf
  | some node => if isEmptyPlain node then some [] else none
  | none => none

def shape? (v : View) : Option (Shape View) :=
  match v.resolved with
  | some (.sequence _ _) => v.items?.map .positional
  | _ => v.entries?.map .named

def json? (v : View) : Option Json :=
  (v.graph.readAny true v.depth v.node v.budget).map (·.1)

def aside? (v : View) : Option Json :=
  (v.graph.readAny false v.depth v.node v.budget).map (·.1)

instance : Document View where
  text?
  setting?
  natural?
  flag?
  word?
  items?
  entries?
  shape?
  json?
  aside?

end View

/-- The view of the one document that a text holds. -/
def view? (s : String) : Option View := (document? s.toList).map View.ofGraph

end Stevedore.Yaml
