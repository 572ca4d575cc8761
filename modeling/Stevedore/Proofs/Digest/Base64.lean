import Stevedore.Digest

/-!
Reading base 64 back, by the table and the padding rules of RFC 4648: groups of four digits, of which
the last one may be padded, with zero in the bits that no byte uses. What is written for bytes is read
back as these bytes.
-/
namespace Stevedore.Digest

/-- The place of a digit in the alphabet. -/
def sextet? (c : Char) : Option Nat :=
  if 65 ≤ c.toNat ∧ c.toNat ≤ 90 then some (c.toNat - 65)
  else if 97 ≤ c.toNat ∧ c.toNat ≤ 122 then some (c.toNat - 97 + 26)
  else if 48 ≤ c.toNat ∧ c.toNat ≤ 57 then some (c.toNat - 48 + 52)
  else if c = '+' then some 62
  else if c = '/' then some 63
  else none

/-- The number with the given digits, the first of which weighs most. -/
def number? (digits : List Char) : Option Nat :=
  digits.foldlM (fun n c => (sextet? c).map (64 * n + ·)) 0

def lastBytes? (a b c : Char) : Option (List UInt8) :=
  if c = '=' then
    (number? [a, b]).bind fun n => if n % 16 = 0 then some [.ofNat (n / 16)] else none
  else
    (number? [a, b, c]).bind fun n =>
      if n % 4 = 0 then some [.ofNat (n / 1024), .ofNat (n / 4)] else none

def bytes? : List Char → Option (List UInt8)
  | [] => some []
  | a :: b :: c :: d :: rest =>
    if d = '=' then if rest = [] then lastBytes? a b c else none
    else
      (number? [a, b, c, d]).bind fun n => (bytes? rest).map fun others =>
        .ofNat (n / 65536) :: .ofNat (n / 256) :: .ofNat n :: others
  | _ => none

def unbase64? (s : String) : Option (List UInt8) := bytes? s.toList

theorem sextet?_sextetDigit {n : Nat} (small : n < 64) : sextet? (sextetDigit n) = some n := by
  have table : ∀ k : Fin 64, sextet? (sextetDigit k) = some k.val := by decide
  exact table ⟨n, small⟩

theorem sextetDigit_ne_pad {n : Nat} (small : n < 64) : sextetDigit n ≠ '=' := by
  intro pad
  have read := sextet?_sextetDigit small
  rw [pad] at read
  contradiction

theorem ofNat_eq_of_mod {n : Nat} {b : UInt8} (same : n % 256 = b.toNat) : UInt8.ofNat n = b := by
  apply UInt8.toNat_inj.mp
  rw [UInt8.toNat_ofNat', ← same]

attribute [local simp] number? sextet?_sextetDigit sextetDigit_ne_pad

theorem number?_two {n : Nat} (small : n < 4096) :
    number? [sextetDigit (n / 64), sextetDigit (n % 64)] = some n := by
  have high : n / 64 < 64 := by omega
  have low : n % 64 < 64 := by omega
  simp [high, low]
  omega

theorem number?_three {n : Nat} (small : n < 262144) :
    number? [sextetDigit (n / 4096), sextetDigit (n / 64 % 64), sextetDigit (n % 64)] = some n := by
  have high : n / 4096 < 64 := by omega
  have mid : n / 64 % 64 < 64 := by omega
  have low : n % 64 < 64 := by omega
  simp [high, mid, low]
  omega

theorem number?_four {n : Nat} (small : n < 16777216) :
    number? [sextetDigit (n / 262144), sextetDigit (n / 4096 % 64), sextetDigit (n / 64 % 64),
      sextetDigit (n % 64)] = some n := by
  have first : n / 262144 < 64 := by omega
  have second : n / 4096 % 64 < 64 := by omega
  have third : n / 64 % 64 < 64 := by omega
  have last : n % 64 < 64 := by omega
  simp [first, second, third, last]
  omega

theorem bytes?_base64Digits (bytes : List UInt8) : bytes? (base64Digits bytes) = some bytes := by
  induction bytes using base64Digits.induct with
  | case1 => rfl
  | case2 a =>
    have bound := a.toNat_lt
    rw [base64Digits, bytes?, if_pos rfl, if_pos rfl, lastBytes?, if_pos rfl,
      number?_two (by omega), Option.bind_some, if_pos (by omega), ofNat_eq_of_mod (b := a) (by omega)]
  | case3 a b =>
    have bound := a.toNat_lt
    have bound' := b.toNat_lt
    have digit : sextetDigit ((a.toNat * 256 + b.toNat) * 4 % 64) ≠ '=' :=
      sextetDigit_ne_pad (by omega)
    rw [base64Digits, bytes?, if_pos rfl, if_pos rfl, lastBytes?, if_neg digit,
      number?_three (by omega), Option.bind_some, if_pos (by omega),
      ofNat_eq_of_mod (b := a) (by omega), ofNat_eq_of_mod (b := b) (by omega)]
  | case4 a b c rest ih =>
    have bound := a.toNat_lt
    have bound' := b.toNat_lt
    have bound'' := c.toNat_lt
    have digit : sextetDigit (((a.toNat * 256 + b.toNat) * 256 + c.toNat) % 64) ≠ '=' :=
      sextetDigit_ne_pad (by omega)
    rw [base64Digits, bytes?, if_neg digit, number?_four (by omega), Option.bind_some, ih,
      Option.map_some, ofNat_eq_of_mod (b := a) (by omega), ofNat_eq_of_mod (b := b) (by omega),
      ofNat_eq_of_mod (b := c) (by omega)]

theorem unbase64?_base64 (bytes : List UInt8) : unbase64? (base64 bytes) = some bytes := by
  rw [unbase64?, base64, String.toList_ofList, bytes?_base64Digits]

end Stevedore.Digest
