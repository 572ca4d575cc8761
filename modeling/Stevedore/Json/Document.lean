import Stevedore.Document.Basic

/-! JSON values as documents. -/
namespace Stevedore.Json

/-- A fixed word is a text, or a record with the word as its only name and nothing under it. -/
def word? : Json → Option String
  | .text s => some s
  | .record [(name, .null)] => some name
  | _ => none

def natural? : Json → Option Nat
  | .integer n => if 0 ≤ n then some n.toNat else none
  | _ => none

def flag? : Json → Option Bool
  | .bool b => some b
  | _ => none

def items? : Json → Option (List Json)
  | .list items => some items
  | _ => none

def entries? : Json → Option (List (String × Json))
  | .record fields => some fields
  | _ => none

def shape? : Json → Option (Shape Json)
  | .record fields => some (.named fields)
  | .list items => some (.positional items)
  | _ => none

def setting? : Json → Option (Option Json)
  | .null => some none
  | j => some (some j)

instance : Document Json where
  text?
  setting?
  natural?
  flag?
  word?
  items?
  entries?
  shape?
  json? := some
  aside? := some

end Stevedore.Json
