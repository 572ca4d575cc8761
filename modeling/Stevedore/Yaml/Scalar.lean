import Stevedore.Decimal.Reading
import Stevedore.Text.Basic

/-! What a plain YAML scalar stands for. -/
namespace Stevedore.Yaml
open Decimal

-- the powers of the core library, whatever else is imported
attribute [local instance (high)] instPowNat

inductive Resolution where
  | null
  | flag (value : Bool)
  | integer (value : Int)
  /-- A whole number of more than 64 bits and at most 128. -/
  | outsize
  | float (value : Binary64)
  | text
  deriving DecidableEq

def isNull (cs : List Char) : Bool :=
  ["~", "null", "Null", "NULL"].any fun word => word.toList = cs

def flag? (cs : List Char) : Option Bool :=
  if ["true", "True", "TRUE"].any fun word => word.toList = cs then some true
  else if ["false", "False", "FALSE"].any fun word => word.toList = cs then some false
  else none

/-- The number that digits of a base write; there has to be one. -/
def inBase? (base : Nat) (cs : List Char) : Option Nat :=
  if cs.isEmpty then none
  else cs.foldlM (fun n c => do
    let d ← Text.hexValue? c
    if d < base then some (base * n + d) else none) 0

/-- The base that a mark at the start names, and the digits after the mark. -/
def marked : List Char → Option (Nat × List Char)
  | '0' :: 'x' :: rest => some (16, rest)
  | '0' :: 'o' :: rest => some (8, rest)
  | '0' :: 'b' :: rest => some (2, rest)
  | _ => none

/-- Digits after a zero are no number. -/
def isPaddedDigits (cs : List Char) : Bool :=
  let cs := match cs with
    | '-' :: rest => rest
    | '+' :: rest => rest
    | cs => cs
  match cs with
  | '0' :: c :: rest => (c :: rest).all Char.isDigit
  | _ => false

def afterPlus : List Char → List Char
  | '+' :: rest => rest
  | cs => cs

def unsigned? (cs : List Char) : Option Nat :=
  let body := afterPlus cs
  match (marked body).bind fun (base, digits) => inBase? base digits with
  | some n => some n
  | none => if isPaddedDigits cs then none else inBase? 10 body

def negative? (cs : List Char) : Option Int :=
  match cs with
  | '-' :: body =>
    match (marked body).bind fun (base, digits) => inBase? base digits with
    | some n => some (-n)
    | none => if isPaddedDigits cs then none else (inBase? 10 body).map fun n => -(n : Int)
  | _ => none

def isInfinity (cs : List Char) : Bool :=
  [".inf", ".Inf", ".INF"].any fun word => word.toList = cs

def isNaN (cs : List Char) : Bool :=
  [".nan", ".NaN", ".NAN"].any fun word => word.toList = cs

/-- A binary fraction; one that grows too large is none, unless infinity is named. -/
def float? (cs : List Char) : Option Binary64 :=
  match cs with
  | '+' :: '+' :: _ => none
  | '+' :: '-' :: _ => none
  | _ =>
    if isInfinity (afterPlus cs) then some (Binary64.infinity false)
    else if cs.head? = some '-' ∧ isInfinity (cs.drop 1) then some (Binary64.infinity true)
    else if isNaN cs then some Binary64.notANumber
    else (read? (afterPlus cs)).filter Binary64.isFinite

def wholeNumber? (cs : List Char) : Option Resolution :=
  match unsigned? cs, negative? cs with
  | some n, _ =>
    if n < 2 ^ (64 : Nat) then some (.integer n) else if n < 2 ^ (128 : Nat) then some .outsize else none
  | none, some n =>
    if -(2 ^ (63 : Nat)) ≤ n then some (.integer n) else if -(2 ^ (127 : Nat)) ≤ n then some .outsize else none
  | none, none => none

def resolve (cs : List Char) : Resolution :=
  if cs.isEmpty || isNull cs then .null
  else
    match flag? cs with
    | some b => .flag b
    | none =>
      match wholeNumber? cs with
      | some r => r
      | none =>
        if isPaddedDigits cs then .text
        else
          match float? cs with
          | some x => .float x
          | none => .text

end Stevedore.Yaml
