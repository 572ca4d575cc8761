import Stevedore.Json.Basic

/-! The structure of a template: text, values, calls of helpers, blocks and inclusions. -/
namespace Stevedore.Template

structure Position where
  line : Nat
  column : Nat
  deriving DecidableEq, Inhabited

inductive Reference where
  /-- A way from the root, or from the scope some levels up, along names or indices. -/
  | way (fromRoot : Bool) (up : Nat) (names : List String)
  /-- A variable that a block sets, some levels up. -/
  | variable (up : Nat) (name : String)
  deriving DecidableEq, Inhabited

inductive Argument where
  | literal (value : Json)
  | reference (target : Reference)
  | call (name : String) (args : List Argument) (options : List (String × Argument))
  deriving Inhabited

/-- A call of a helper, with names for what a block passes to its body. -/
structure Head where
  name : String
  args : List Argument
  options : List (String × Argument)
  names : List String
  deriving Inhabited

inductive Element where
  | text (chars : List Char)
  /-- A value, or a helper without arguments if one has the name as it is written. -/
  | value (at_ : Position) (name : String) (target : Reference)
  /-- A call in parentheses, whose result may name a helper in its turn. -/
  | result (at_ : Position) (call : Argument)
  | call (at_ : Position) (head : Head)
  | block (at_ : Position) (head : Head) (body : List Element) (otherwise : Option (List Element))
  | inclusion (at_ : Position) (head : Head)
  deriving Inhabited

end Stevedore.Template
