import Stevedore.Decimal.Binary64
import Stevedore.Table

/-! JSON values. -/
namespace Stevedore

inductive Json where
  | null
  | bool (value : Bool)
  | integer (value : Int)
  | float (value : Binary64)
  | text (value : String)
  | list (items : List Json)
  | record (fields : List (String × Json))
  deriving Inhabited

namespace Json

/-- A record with its fields in ascending order, each name once, the last one of a name. -/
def ofFields (fields : List (String × Json)) : Json := .record (Table.ofList fields).entries

def ofTable (t : Table Json) : Json := .record t.entries

def texts (items : List String) : Json := .list (items.map .text)

def textTable (t : Table String) : Json := .record (t.entries.map fun e => (e.1, .text e.2))

/-- An absent value leaves no field behind. -/
def field? {α : Type} (name : String) (encode : α → Json) : Option α → List (String × Json)
  | none => []
  | some value => [(name, encode value)]

def get? : Json → String → Option Json
  | .record fields, name => fields.lookup name
  | _, _ => none

def text? : Json → Option String
  | .text s => some s
  | _ => none

mutual

/-- Equality of values: numbers of one kind by value, so that both zeros are one. -/
def same : Json → Json → Bool
  | .null, .null => true
  | .bool a, .bool b => a == b
  | .integer a, .integer b => a == b
  | .float a, .float b => a.compare? b == some .eq
  | .text a, .text b => a == b
  | .list a, .list b => sameItems a b
  | .record a, .record b => sameFields a b
  | _, _ => false

def sameItems : List Json → List Json → Bool
  | [], [] => true
  | a :: as, b :: bs => same a b && sameItems as bs
  | _, _ => false

def sameFields : List (String × Json) → List (String × Json) → Bool
  | [], [] => true
  | (k, a) :: as, (l, b) :: bs => k == l && same a b && sameFields as bs
  | _, _ => false

end

end Json
end Stevedore
