import Stevedore.Decimal.Shortest

/-! How a decimal is laid out: positional near one, with an exponent elsewhere. -/
namespace Stevedore.Decimal

structure Layout where
  /-- A positive exponent carries a plus sign. -/
  plus : Bool
  /-- The greatest count of digits before the point. -/
  widest : Int
  /-- The least position of the first digit, counted from the point. -/
  lowest : Int

def Layout.json : Layout := { plus := true, widest := 16, lowest := -4 }

def Layout.yaml : Layout := { plus := false, widest := 16, lowest := -4 }

def zeros (n : Nat) : List Char := List.replicate n '0'

/-- The size of a number, laid out; there is always a digit after a point. -/
def Layout.size (layout : Layout) (s : Scaled) : List Char :=
  let digits := Nat.toDigits 10 s.digits
  let point := s.exponent + digits.length
  if s.digits = 0 then ['0', '.', '0']
  else if 0 ≤ s.exponent ∧ point ≤ layout.widest then
    digits ++ zeros s.exponent.toNat ++ ['.', '0']
  else if 0 < point ∧ point ≤ layout.widest then
    digits.take point.toNat ++ '.' :: digits.drop point.toNat
  else if layout.lowest ≤ point ∧ point ≤ 0 then
    '0' :: '.' :: zeros (-point).toNat ++ digits
  else
    let power := point - 1
    let sign := if power < 0 then ['-'] else if layout.plus then ['+'] else []
    let fraction := if digits.length = 1 then [] else '.' :: digits.drop 1
    digits.take 1 ++ fraction ++ 'e' :: sign ++ Nat.toDigits 10 power.natAbs

def Layout.write (layout : Layout) (x : Binary64) : List Char :=
  (if x.negative then ['-'] else []) ++ layout.size (shortest x)

end Stevedore.Decimal
