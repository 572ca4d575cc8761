import Stevedore.Json.Basic

/-!
Documents that describe themselves, seen one level at a time, and how typed values are read from
them. A reading gives nothing where the document does not fit the type.
-/
namespace Stevedore

inductive Shape (δ : Type) where
  | named (fields : List (String × δ))
  | positional (items : List δ)

/-- What a document is, for a reader that expects something of a certain kind. -/
class Document (δ : Type) where
  text? : δ → Option String
  /-- An optional value: unset, or set to a document. -/
  setting? : δ → Option (Option δ)
  natural? : δ → Option Nat
  flag? : δ → Option Bool
  word? : δ → Option String
  items? : δ → Option (List δ)
  entries? : δ → Option (List (String × δ))
  shape? : δ → Option (Shape δ)
  json? : δ → Option Json
  aside? : δ → Option Json

namespace Document
variable {δ α β : Type} [Document δ]

-- the powers of the core library, whatever else is imported
attribute [local instance (high)] instPowNat

def natural16? (d : δ) : Option UInt16 :=
  (natural? d).bind fun n => if n < 2 ^ (16 : Nat) then some (UInt16.ofNat n) else none

def natural32? (d : δ) : Option UInt32 :=
  (natural? d).bind fun n => if n < 2 ^ (32 : Nat) then some (UInt32.ofNat n) else none

def listOf? (read : δ → Option α) (d : δ) : Option (List α) :=
  (items? d).bind fun items => items.mapM read

/-- A table; the last value of a key is kept, and all of them must fit. -/
def tableOf? (read : δ → Option α) (d : δ) : Option (Table α) :=
  (entries? d).bind fun entries =>
    (entries.mapM fun e => (read e.2).map fun v => (e.1, v)).map Table.ofList

def textTable? (d : δ) : Option (Table String) := tableOf? text? d

/-- No field of a record that its reader knows may be given twice. -/
def noneTwice (names : List String) (fields : List (String × β)) : Bool :=
  decide ((fields.map (·.1)).filter names.contains).Nodup

/-- The fields of a record with the given names; those unknown to the reader are passed over. -/
def fields? (names : List String) (d : δ) : Option (List (String × δ)) :=
  match shape? d with
  | none => none
  | some (.named fields) => if noneTwice names fields then some fields else none
  | some (.positional items) =>
    if items.length ≤ names.length then some (names.zip items) else none

/-- The fields of a record that shares its fields with others, which must be named. -/
def sharedFields? (names : List String) (d : δ) : Option (List (String × δ)) :=
  (entries? d).bind fun fields => if noneTwice names fields then some fields else none

/-- The fields outside `names`, set aside as one record. -/
def others? (names : List String) (fields : List (String × δ)) : Option Json :=
  ((fields.filter fun f => !names.contains f.1).mapM fun f =>
    (aside? f.2).map fun v => (f.1, v)).map .record

def required? (fields : List (String × δ)) (name : String) (read : δ → Option α) : Option α :=
  (fields.lookup name).bind read

def defaulted? (fields : List (String × δ)) (name : String) (default : α)
    (read : δ → Option α) : Option α :=
  match fields.lookup name with
  | none => some default
  | some d => read d

def optional? (fields : List (String × δ)) (name : String) (read : δ → Option α) :
    Option (Option α) :=
  match fields.lookup name with
  | none => some none
  | some d =>
    match setting? d with
    | none => none
    | some none => some none
    | some (some d) => (read d).map some

end Document
end Stevedore
