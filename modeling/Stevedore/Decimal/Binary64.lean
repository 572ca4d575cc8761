/-!
Binary floating point numbers of 64 bits as exact fractions: taking one apart, and rounding a
fraction to the nearest one.
-/
namespace Stevedore

/-- A number as its sign bit, eleven exponent bits and fifty-two fraction bits. -/
structure Binary64 where
  bits : UInt64
  deriving DecidableEq

namespace Binary64

-- the powers of the core library, whatever else is imported
attribute [local instance (high)] instPowNat

def negative (x : Binary64) : Bool := 2 ^ (63 : Nat) ≤ x.bits.toNat

def exponentField (x : Binary64) : Nat := x.bits.toNat / 2 ^ (52 : Nat) % 2048

def fractionField (x : Binary64) : Nat := x.bits.toNat % 2 ^ (52 : Nat)

def isFinite (x : Binary64) : Bool := x.exponentField != 2047

def isNaN (x : Binary64) : Bool := x.exponentField == 2047 && x.fractionField != 0

def isZero (x : Binary64) : Bool := x.exponentField == 0 && x.fractionField == 0

/-- Neither zero, nor below the least number with all fifty-three digits, nor infinite. -/
def isNormal (x : Binary64) : Bool := x.exponentField != 0 && x.exponentField != 2047

/-- A finite number's size is `mantissa` times two to the power `scale`. -/
def mantissa (x : Binary64) : Nat :=
  if x.exponentField = 0 then x.fractionField else x.fractionField + 2 ^ (52 : Nat)

def scale (x : Binary64) : Int :=
  if x.exponentField = 0 then -1074 else (x.exponentField : Int) - 1075

def magnitude (x : Binary64) : Nat × Nat :=
  if 0 ≤ x.scale then (x.mantissa * 2 ^ x.scale.toNat, 1) else (x.mantissa, 2 ^ (-x.scale).toNat)

def infinity (negative : Bool) : Binary64 :=
  ⟨UInt64.ofNat ((if negative then 2 ^ (63 : Nat) else 0) + 2047 * 2 ^ (52 : Nat))⟩

def notANumber : Binary64 := ⟨UInt64.ofNat (2047 * 2 ^ (52 : Nat) + 2 ^ (51 : Nat))⟩

/-- The quotient to the nearest whole number, a half going to the even neighbour. -/
def roundQuotient (num den : Nat) : Nat :=
  let q := num / den
  let twice := 2 * (num % den)
  if twice < den then q else if den < twice then q + 1 else q + q % 2

/-- The quotient of two numbers divided by two to the power `scale`, before rounding. -/
def scaledBy (scale : Int) (num den : Nat) : Nat × Nat :=
  if 0 ≤ scale then (num, den * 2 ^ scale.toNat) else (num * 2 ^ (-scale).toNat, den)

/-- The power of two in units of which a fraction has fifty-three binary digits. -/
def fullScale (num den : Nat) : Int :=
  let guess : Int := (Nat.log2 num : Int) - Nat.log2 den - 52
  let (n, d) := scaledBy guess num den
  if n / d < 2 ^ (52 : Nat) then guess - 1 else guess

/-- The number `q` times two to the power `scale`, where `q` has at most fifty-three binary digits,
or one more as a power of two, and fewer only at the least scale. -/
def encode (negative : Bool) (scale : Int) (q : Nat) : Binary64 :=
  let sign := if negative then 2 ^ (63 : Nat) else 0
  if q < 2 ^ (52 : Nat) then ⟨UInt64.ofNat (sign + q)⟩
  else
    let field := (scale + 1074).toNat * 2 ^ (52 : Nat) + q
    if 2047 * 2 ^ (52 : Nat) ≤ field then infinity negative else ⟨UInt64.ofNat (sign + field)⟩

/-- The number nearest to a fraction, a half going to the even neighbour. -/
def ofRatio (negative : Bool) (num den : Nat) : Binary64 :=
  if num = 0 then ⟨UInt64.ofNat (if negative then 2 ^ (63 : Nat) else 0)⟩
  else
    let scale := max (fullScale num den) (-1074)
    let (n, d) := scaledBy scale num den
    encode negative scale (roundQuotient n d)

def ofInt (n : Int) : Binary64 := ofRatio (n < 0) n.natAbs 1

/-- Ten to a power, rounded once. -/
def powerOfTen (n : Nat) : Binary64 := ofRatio false (10 ^ n) 1

def negated (x : Binary64) : Binary64 :=
  ⟨UInt64.ofNat ((x.bits.toNat + 2 ^ (63 : Nat)) % 2 ^ (64 : Nat))⟩

def times (x y : Binary64) : Binary64 :=
  let (a, b) := x.magnitude
  let (c, d) := y.magnitude
  ofRatio false (a * c) (b * d)

def quotient (x y : Binary64) : Binary64 :=
  let (a, b) := x.magnitude
  let (c, d) := y.magnitude
  ofRatio false (a * d) (b * c)

/-- A whole number that grows with the value; both zeros give zero. -/
def rank (x : Binary64) : Int :=
  let size : Nat := x.bits.toNat % 2 ^ (63 : Nat)
  if x.negative then -(size : Int) else size

/-- The order by value; a number that is no number has none. -/
def compare? (x y : Binary64) : Option Ordering :=
  if x.isNaN || y.isNaN then none else some (compare x.rank y.rank)

end Binary64
end Stevedore
