import Stevedore.Decimal.Binary64

/-! Reading decimals as binary numbers: rounded once, or scaled step by step. -/
namespace Stevedore.Decimal

-- the powers of the core library, whatever else is imported
attribute [local instance (high)] instPowNat

def digitValue (c : Char) : Nat := c.toNat - 48

def digitsValue (cs : List Char) : Nat := cs.foldl (fun n c => 10 * n + digitValue c) 0

def nearest (negative : Bool) (digits : Nat) (exponent : Int) : Binary64 :=
  let size : Int := (Nat.log2 digits : Int) * 30103 / 100000 + exponent
  if digits = 0 ∨ size < -400 then Binary64.ofRatio negative 0 1
  else if 400 < size then Binary64.infinity negative
  else if 0 ≤ exponent then Binary64.ofRatio negative (digits * 10 ^ exponent.toNat) 1
  else Binary64.ofRatio negative digits (10 ^ (-exponent).toNat)

/-- A sign, if there is one, and the rest: true for minus. -/
def splitSign : List Char → Bool × List Char
  | '-' :: rest => (true, rest)
  | '+' :: rest => (false, rest)
  | cs => (false, cs)

/-- The exponent at the end of a number: `e` or `E`, a sign, one digit or more, and no more. -/
def exponentPart : List Char → Option Int
  | [] => some 0
  | c :: rest =>
    if c = 'e' ∨ c = 'E' then
      let (minus, digits) := splitSign rest
      if digits.isEmpty || !digits.all Char.isDigit then none
      else
        let n : Int := digitsValue digits
        some (if minus then -n else n)
    else none

/-- A decimal with an optional sign, point and exponent, and a digit somewhere before the
exponent; or a word for an infinity or for no number, in either case. -/
def read? (cs : List Char) : Option Binary64 :=
  let (minus, body) := splitSign cs
  let whole := body.takeWhile Char.isDigit
  let rest := body.dropWhile Char.isDigit
  let (fraction, rest) := match rest with
    | '.' :: r => (r.takeWhile Char.isDigit, r.dropWhile Char.isDigit)
    | r => ([], r)
  if whole.isEmpty && fraction.isEmpty then
    let word := String.ofList (body.map Char.toLower)
    if word = "inf" ∨ word = "infinity" then some (Binary64.infinity minus)
    else if word = "nan" then some Binary64.notANumber
    else none
  else
    (exponentPart rest).map fun e =>
      nearest minus (digitsValue (whole ++ fraction)) (e - fraction.length)

/-- Digits while the number stays below two to the power 64, and the digits left over. -/
def boundedDigits (n : Nat) : List Char → Nat × List Char
  | [] => (n, [])
  | c :: rest =>
    let next := 10 * n + digitValue c
    if 2 ^ (64 : Nat) ≤ next then (n, c :: rest) else boundedDigits next rest

/-- Scales by powers of ten of at most 308, rounding each time; none when it grows too large. -/
def scaleSteps : Nat → Binary64 → Int → Option Binary64
  | 0, x, _ => some x
  | fuel + 1, x, exponent =>
    if exponent.natAbs ≤ 308 then
      let power := Binary64.powerOfTen exponent.natAbs
      if exponent < 0 then some (x.quotient power)
      else
        let y := x.times power
        if y.isFinite then some y else none
    else if x.isZero then some x
    else if 0 ≤ exponent then none
    else scaleSteps fuel (x.quotient (Binary64.powerOfTen 308)) (exponent + 308)

/-- A decimal read in steps: the digits that fit 64 bits give a first number, which is then
scaled. Digits of the whole part that do not fit count into the exponent. -/
def stepwise? (negative : Bool) (whole fraction : List Char) (exponent : Int) :
    Option Binary64 :=
  let (n, excess) := boundedDigits 0 whole
  let (n, left) := boundedDigits n fraction
  let used : Int := fraction.length - left.length
  let start : Int := excess.length - used
  let x := (scaleSteps 8 (Binary64.ofRatio false n 1) (start + exponent))
  if n = 0 then some (Binary64.ofRatio negative 0 1)
  else x.map fun x => if negative then x.negated else x

end Stevedore.Decimal
