import Stevedore.Decimal.Reading
import Stevedore.Json.Basic
import Stevedore.Text.Basic

/-! Reading JSON text, strictly. -/
namespace Stevedore.Json
open Decimal Text

-- the powers of the core library, whatever else is imported
attribute [local instance (high)] instPowNat

def isSpace (c : Char) : Bool := c = ' ' || c = '\n' || c = '\t' || c = '\r'

def skipSpace (cs : List Char) : List Char := cs.dropWhile isSpace

/-- Joins the two halves of a code point outside the basic plane. -/
def joinHalves (high low : Nat) : Option Char :=
  if 0xDC00 ≤ low ∧ low ≤ 0xDFFF then
    some (Char.ofNat (0x10000 + (high - 0xD800) * 0x400 + (low - 0xDC00)))
  else none

/-- The character named by four digits, or by two groups of four that are halves. -/
def readUnicode : List Char → Option (Char × List Char)
  | a :: b :: c :: d :: rest =>
    match hexNumber? [a, b, c, d] with
    | none => none
    | some n =>
      if 0xD800 ≤ n ∧ n ≤ 0xDBFF then
        match rest with
        | '\\' :: 'u' :: e :: f :: g :: h :: rest =>
          (hexNumber? [e, f, g, h]).bind fun low =>
            (joinHalves n low).map fun ch => (ch, rest)
        | _ => none
      else if 0xDC00 ≤ n ∧ n ≤ 0xDFFF then none
      else some (Char.ofNat n, rest)
  | _ => none

def escapeOf? (c : Char) : Option Char :=
  if c = '"' ∨ c = '\\' ∨ c = '/' then some c
  else if c = 'n' then some '\n'
  else if c = 't' then some '\t'
  else if c = 'r' then some '\r'
  else if c = 'b' then some (Char.ofNat 8)
  else if c = 'f' then some (Char.ofNat 12)
  else none

/-- The rest of a quoted text after its opening quote, the characters so far in reverse. -/
def readText : Nat → List Char → List Char → Option (String × List Char)
  | 0, _, _ => none
  | _ + 1, _, [] => none
  | _ + 1, acc, '"' :: rest => some (String.ofList acc.reverse, rest)
  | fuel + 1, acc, '\\' :: 'u' :: rest =>
    match readUnicode rest with
    | none => none
    | some (c, rest) => readText fuel (c :: acc) rest
  | _ + 1, _, ['\\'] => none
  | fuel + 1, acc, '\\' :: c :: rest =>
    match escapeOf? c with
    | none => none
    | some c => readText fuel (c :: acc) rest
  | fuel + 1, acc, c :: rest =>
    if c.toNat < 0x20 then none else readText fuel (c :: acc) rest

/-- How a decimal with a sign, the digits of its whole part and of its fraction and an exponent
becomes a binary fraction; none when it is out of range. -/
abbrev Rounding := Bool → List Char → List Char → Int → Option Binary64

/-- A whole number is exact from the least of 64 bits with sign to the greatest without; others,
and minus zero, become binary fractions. -/
def wholeNumber (round : Rounding) (minus : Bool) (digits : List Char) : Option Json :=
  let n := digitsValue digits
  if minus then
    if 0 < n ∧ n ≤ 2 ^ (63 : Nat) then some (.integer (-n))
    else (round true digits [] 0).map .float
  else if n < 2 ^ (64 : Nat) then some (.integer n)
  else (round false digits [] 0).map .float

def readExponent : List Char → Option (Option Int × List Char)
  | [] => some (none, [])
  | c :: rest =>
    if c = 'e' ∨ c = 'E' then
      let (minus, rest) := splitSign rest
      let digits := rest.takeWhile Char.isDigit
      if digits.isEmpty then none
      else
        let n : Int := digitsValue digits
        some (some (if minus then -n else n), rest.dropWhile Char.isDigit)
    else some (none, c :: rest)

/-- The digits after a point, if there is one; then there is at least one digit. -/
def readFraction : List Char → Option (Option (List Char) × List Char)
  | '.' :: rest =>
    let digits := rest.takeWhile Char.isDigit
    if digits.isEmpty then none else some (some digits, rest.dropWhile Char.isDigit)
  | rest => some (none, rest)

/-- A number without its sign; no leading zeros. -/
def readUnsigned (round : Rounding) (minus : Bool) (cs : List Char) : Option (Json × List Char) :=
  let whole := cs.takeWhile Char.isDigit
  if whole.isEmpty || (whole.head? == some '0' && whole.length != 1) then none
  else
    (readFraction (cs.dropWhile Char.isDigit)).bind fun (fraction, rest) =>
      (readExponent rest).bind fun (exponent, rest) =>
        let value := if fraction.isSome || exponent.isSome then
            (round minus whole (fraction.getD []) (exponent.getD 0)).map .float
          else wholeNumber round minus whole
        value.map fun v => (v, rest)

def readNumber (round : Rounding) : List Char → Option (Json × List Char)
  | '-' :: rest => readUnsigned round true rest
  | cs => readUnsigned round false cs

mutual

/-- A value after white space; `depth` lists and records may still open. -/
def readValue (round : Rounding) : Nat → Nat → List Char → Option (Json × List Char)
  | 0, _, _ => none
  | fuel + 1, depth, cs =>
    match skipSpace cs with
    | 'n' :: 'u' :: 'l' :: 'l' :: rest => some (.null, rest)
    | 't' :: 'r' :: 'u' :: 'e' :: rest => some (.bool true, rest)
    | 'f' :: 'a' :: 'l' :: 's' :: 'e' :: rest => some (.bool false, rest)
    | '"' :: rest => (readText fuel [] rest).map fun (s, rest) => (.text s, rest)
    | '[' :: rest =>
      if depth = 0 then none
      else
        match skipSpace rest with
        | ']' :: rest => some (.list [], rest)
        | rest => (readItems round fuel (depth - 1) [] rest).map fun (v, rest) => (.list v, rest)
    | '\x7b' :: rest =>
      if depth = 0 then none
      else
        match skipSpace rest with
        | '\x7d' :: rest => some (.record [], rest)
        | rest => (readFields round fuel (depth - 1) [] rest).map fun (v, rest) => (ofFields v, rest)
    | rest => readNumber round rest

/-- Items up to the closing bracket, those so far in reverse. -/
def readItems (round : Rounding) : Nat → Nat → List Json → List Char → Option (List Json × List Char)
  | 0, _, _, _ => none
  | fuel + 1, depth, acc, cs =>
    match readValue round fuel depth cs with
    | none => none
    | some (v, rest) =>
      match skipSpace rest with
      | ',' :: rest => readItems round fuel depth (v :: acc) rest
      | ']' :: rest => some ((v :: acc).reverse, rest)
      | _ => none

/-- Fields up to the closing brace, those so far in reverse. -/
def readFields (round : Rounding) : Nat → Nat → List (String × Json) → List Char →
    Option (List (String × Json) × List Char)
  | 0, _, _, _ => none
  | fuel + 1, depth, acc, cs =>
    match skipSpace cs with
    | '"' :: rest =>
      match readText fuel [] rest with
      | none => none
      | some (name, rest) =>
        match skipSpace rest with
        | ':' :: rest =>
          match readValue round fuel depth rest with
          | none => none
          | some (v, rest) =>
            match skipSpace rest with
            | ',' :: rest => readFields round fuel depth ((name, v) :: acc) rest
            | '\x7d' :: rest => some (((name, v) :: acc).reverse, rest)
            | _ => none
        | _ => none
    | _ => none

end

/-- One value and white space, and no more. -/
def readWith (round : Rounding) (depth : Nat) (s : String) : Option Json :=
  let cs := s.toList
  match readValue round (2 * cs.length + 2) depth cs with
  | some (v, rest) => if (skipSpace rest).isEmpty then some v else none
  | none => none

/-- Fractions are scaled step by step; at most 127 lists and records may be nested. -/
def read? (s : String) : Option Json := readWith stepwise? 127 s

end Stevedore.Json
