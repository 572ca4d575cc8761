import Stevedore.Decimal.Binary64

/-! The shortest decimal that reads back as a given binary number, and of those the nearest. -/
namespace Stevedore.Decimal

-- the powers of the core library, whatever else is imported
attribute [local instance (high)] instPowNat

structure Scaled where
  digits : Nat
  exponent : Int
  deriving DecidableEq

def tenTo (n : Int) : Nat × Nat :=
  if 0 ≤ n then (10 ^ n.toNat, 1) else (1, 10 ^ (-n).toNat)

/-- Whether `a / b ≤ c / d`. -/
def atMost (a b c d : Nat) : Bool := a * d ≤ c * b

/-- The next exponent if ten to it is still at most `num / den`. -/
def raised (num den : Nat) (k : Int) : Int :=
  let (a, b) := tenTo (k + 1)
  if atMost a b num den then k + 1 else k

def leadingExponent (num den : Nat) : Int :=
  let guess : Int := ((Nat.log2 num : Int) - Nat.log2 den - 1) * 30103 / 100000 - 1
  raised num den (raised num den (raised num den guess))

/-- The numbers that round to a finite positive number lie between `low` and `high`, in units of
a quarter of its last binary digit. -/
structure Interval where
  low : Nat
  high : Nat
  closed : Bool
  unit : Int

def intervalOf (x : Binary64) : Interval :=
  let m := x.mantissa
  let narrow := m = 2 ^ (52 : Nat) ∧ 1 < x.exponentField
  { low := 4 * m - (if narrow then 1 else 2), high := 4 * m + 2, closed := m % 2 = 0,
    unit := x.scale - 2 }

def Interval.holds (i : Interval) (num den : Nat) : Bool :=
  let (n, d) := Binary64.scaledBy i.unit num den
  if i.closed then i.low * d ≤ n && n ≤ i.high * d else i.low * d < n && n < i.high * d

def stripZeros : Nat → Scaled → Scaled
  | 0, s => s
  | fuel + 1, s =>
    if s.digits ≠ 0 ∧ s.digits % 10 = 0 then stripZeros fuel ⟨s.digits / 10, s.exponent + 1⟩ else s

/-- The nearest neighbour of `num / den` on the grid of step ten to the power `step`, if one of
the two neighbours lies in the interval. -/
def onGrid (i : Interval) (num den : Nat) (step : Int) : Option Scaled :=
  let (a, b) := tenTo step
  let below := num * b / (den * a)
  let rest := num * b % (den * a)
  let inside (c : Nat) := i.holds (c * a) b
  match inside below, inside (below + 1) with
  | false, false => none
  | true, false => some ⟨below, step⟩
  | false, true => some ⟨below + 1, step⟩
  | true, true =>
    let twice := 2 * rest
    let c := if twice < den * a then below
      else if den * a < twice then below + 1 else below + below % 2
    some ⟨c, step⟩

/-- Tries grids of one, two, … digits. -/
def firstGrid (i : Interval) (num den : Nat) (lead : Int) : Nat → Nat → Scaled
  | 0, _ => ⟨0, 0⟩
  | fuel + 1, count =>
    match onGrid i num den (lead + 1 - count) with
    | some s => s
    | none => firstGrid i num den lead fuel (count + 1)

/-- Seventeen digits always suffice; the size of zero is zero. -/
def shortest (x : Binary64) : Scaled :=
  if x.isZero then ⟨0, 0⟩
  else
    let (num, den) := x.magnitude
    stripZeros 20 (firstGrid (intervalOf x) num den (leadingExponent num den) 18 1)

end Stevedore.Decimal
