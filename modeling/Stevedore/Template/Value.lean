import Stevedore.Decimal.Reading
import Stevedore.Json.Printer

/-! What templates make of values: their text, whether they count as true, and their order. -/
namespace Stevedore.Template

-- the powers of the core library, whatever else is imported
attribute [local instance (high)] instPowNat

mutual

/-- The text of a value: texts as they are, nothing for null, and no contents of records. -/
def shown : Json → List Char
  | .null => []
  | .text s => s.toList
  | .list items => '[' :: Json.joinWith [',', ' '] (shownItems items) ++ [']']
  | .record _ => "[object]".toList
  | .bool b => (Json.bool b).write
  | .integer n => (Json.integer n).write
  | .float x => (Json.float x).write

def shownItems : List Json → List (List Char)
  | [] => []
  | item :: rest => shown item :: shownItems rest

end

def number? : Json → Option Binary64
  | .integer n => some (Binary64.ofInt n)
  | .float x => some x
  | _ => none

/-- Whether a condition holds; with `zero` any number does. -/
def isTrue (zero : Bool) : Json → Bool
  | .null => false
  | .bool b => b
  | .text s => !s.isEmpty
  | .list items => !items.isEmpty
  | .record fields => !fields.isEmpty
  | .integer n => zero || n != 0
  | .float x => zero || x.isNormal

/-- The order of two numbers, texts or flags; a text beside a number is read as one. -/
def order? : Json → Json → Option Ordering
  | .text a, .text b => some (compare a b)
  | .bool a, .bool b => some (compare a.toNat b.toNat)
  | .integer a, .integer b =>
    if a < 2 ^ (63 : Nat) ∧ b < 2 ^ (63 : Nat) then some (compare a b)
    else (Binary64.ofInt a).compare? (Binary64.ofInt b)
  | .text a, b => do
    let x ← Decimal.read? a.toList
    let y ← number? b
    x.compare? y
  | a, .text b => do
    let x ← number? a
    let y ← Decimal.read? b.toList
    x.compare? y
  | a, b => do
    let x ← number? a
    let y ← number? b
    x.compare? y

def size : Json → Nat
  | .list items => items.length
  | .record fields => fields.length
  | .text s => s.utf8ByteSize
  | _ => 0

end Stevedore.Template
