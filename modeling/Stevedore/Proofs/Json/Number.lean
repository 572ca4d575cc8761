import Mathlib.Data.List.TakeWhile
import Stevedore.Decimal.Layout
import Stevedore.Json.Printer
import Stevedore.Proofs.Decimal.Nearest
import Stevedore.Proofs.Json.Continuation

/-! The texts of numbers, read back. -/
namespace Stevedore.Json
open Decimal

/-- A decimal becomes the binary fraction nearest to it. -/
def exactly : Rounding := fun minus whole fraction exponent =>
  some (nearest minus (digitsValue (whole ++ fraction)) (exponent - fraction.length))

section Digits

theorem digitsValue_eq (cs : List Char) : digitsValue cs = Nat.ofDigitChars 10 cs 0 := by
  rw [Nat.ofDigitChars_eq_foldl]
  rfl

theorem digitsValue_toDigits (n : Nat) : digitsValue (Nat.toDigits 10 n) = n := by
  rw [digitsValue_eq, Nat.ofDigitChars_ten_toDigits]

theorem digitsValue_zeros (cs : List Char) (n : Nat) :
    digitsValue (cs ++ zeros n) = digitsValue cs * 10 ^ n := by
  rw [digitsValue_eq, digitsValue_eq, Nat.ofDigitChars_append, zeros,
    Nat.ofDigitChars_replicate_zero, Nat.mul_comm]

theorem zeros_digitsValue (cs : List Char) (n : Nat) :
    digitsValue (zeros n ++ cs) = digitsValue cs := by
  rw [digitsValue_eq, digitsValue_eq, Nat.ofDigitChars_append, zeros,
    Nat.ofDigitChars_replicate_zero, Nat.mul_zero]

theorem isDigit_toDigits {n : Nat} {c : Char} (member : c ∈ Nat.toDigits 10 n) :
    c.isDigit = true :=
  Nat.isDigit_of_mem_toDigits (by decide) (by decide) member

theorem isDigit_zeros {n : Nat} {c : Char} (member : c ∈ zeros n) : c.isDigit = true := by
  rw [List.eq_of_mem_replicate member]
  rfl

theorem toDigits_lead {n : Nat} (positive : 0 < n) : (Nat.toDigits 10 n).head? ≠ some '0' := by
  induction n using Nat.strongRecOn with
  | _ n ih =>
    rw [Nat.toDigits_eq_if (by decide)]
    split
    · rename_i small
      have digits : ∀ d < 10, 0 < d → d.digitChar ≠ '0' := by decide
      simpa using digits n small positive
    · rename_i large
      rw [List.head?_append_of_ne_nil _ Nat.toDigits_ne_nil]
      exact ih (n / 10) (by omega) (by omega)

end Digits

theorem takeWhile_digits {digits rest : List Char} (all : ∀ c ∈ digits, c.isDigit = true)
    (stop : ∀ c ∈ rest.head?, c.isDigit = false) :
    (digits ++ rest).takeWhile Char.isDigit = digits ∧
      (digits ++ rest).dropWhile Char.isDigit = rest := by
  rw [takeWhile_append_of_stop digits stop, dropWhile_append_of_stop digits stop,
    List.takeWhile_eq_self_iff.mpr all, List.dropWhile_eq_nil_iff.mpr all, List.nil_append]
  exact ⟨rfl, rfl⟩

/-- A whole part without leading zeros. -/
structure IsWhole (digits : List Char) : Prop where
  nonempty : digits ≠ []
  all : ∀ c ∈ digits, c.isDigit = true
  lead : digits.head? = some '0' → digits.length = 1

theorem isWhole_toDigits (n : Nat) : IsWhole (Nat.toDigits 10 n) where
  nonempty := Nat.toDigits_ne_nil
  all _ := isDigit_toDigits
  lead zero := by
    cases n with
    | zero => rfl
    | succ n => exact absurd zero (toDigits_lead (by omega))

theorem isWhole_of_lead {digits : List Char} (nonempty : digits ≠ [])
    (all : ∀ c ∈ digits, c.isDigit = true) (lead : digits.head? ≠ some '0') : IsWhole digits :=
  ⟨nonempty, all, fun zero => absurd zero lead⟩

theorem readUnsigned_parts (round : Rounding) {whole rest left tail : List Char}
    {fraction : Option (List Char)} {exponent : Option Int} (minus : Bool) (isWhole : IsWhole whole)
    (stop : ∀ c ∈ rest.head?, c.isDigit = false) (fractionOk : readFraction rest = some (fraction, left))
    (exponentOk : readExponent left = some (exponent, tail)) :
    readUnsigned round minus (whole ++ rest) =
      (if fraction.isSome || exponent.isSome then
        (round minus whole (fraction.getD []) (exponent.getD 0)).map .float
      else wholeNumber round minus whole).map fun v => (v, tail) := by
  obtain ⟨taken, dropped⟩ := takeWhile_digits isWhole.all stop
  have lead : (whole.isEmpty || (whole.head? == some '0' && whole.length != 1)) = false := by
    simpa [isWhole.nonempty] using isWhole.lead
  simp only [readUnsigned, taken, dropped, lead, fractionOk, exponentOk, Option.bind_some,
    Bool.false_eq_true, if_false]

theorem readFraction_point {digits rest : List Char} (nonempty : digits ≠ [])
    (all : ∀ c ∈ digits, c.isDigit = true) (stop : ∀ c ∈ rest.head?, c.isDigit = false) :
    readFraction ('.' :: (digits ++ rest)) = some (some digits, rest) := by
  obtain ⟨taken, dropped⟩ := takeWhile_digits all stop
  simp [readFraction, taken, dropped, nonempty]

theorem readFraction_of_ends {tail : List Char} (ends : Ends tail) :
    readFraction tail = some (none, tail) := by
  simpa using readFraction_append (show readFraction [] = some (none, []) from rfl) ends

theorem readExponent_of_ends {tail : List Char} (ends : Ends tail) :
    readExponent tail = some (none, tail) := by
  simpa using readExponent_append (show readExponent [] = some (none, []) from rfl) ends

theorem splitSign_digits {digits : List Char} (tail : List Char) (nonempty : digits ≠ [])
    (all : ∀ c ∈ digits, c.isDigit = true) : splitSign (digits ++ tail) = (false, digits ++ tail) := by
  obtain ⟨c, digits, rfl⟩ := List.exists_cons_of_ne_nil nonempty
  have digit : c.isDigit = true := all c (by simp)
  rw [List.cons_append, splitSign]
  · intro rest same
    obtain ⟨rfl, -⟩ := List.cons.inj same
    contradiction
  · intro rest same
    obtain ⟨rfl, -⟩ := List.cons.inj same
    contradiction

theorem readExponent_power {tail : List Char} (plus : Bool) (power : Int) (ends : Ends tail) :
    readExponent ('e' :: ((if power < 0 then ['-'] else if plus then ['+'] else []) ++
      (Nat.toDigits 10 power.natAbs ++ tail))) = some (some power, tail) := by
  have nonempty := @Nat.toDigits_ne_nil power.natAbs 10
  have all : ∀ c ∈ Nat.toDigits 10 power.natAbs, c.isDigit = true := fun _ => isDigit_toDigits
  obtain ⟨taken, dropped⟩ := takeWhile_digits all (no_digit_of_ends ends)
  have value := digitsValue_toDigits power.natAbs
  have sign : splitSign ((if power < 0 then ['-'] else if plus then ['+'] else []) ++
      (Nat.toDigits 10 power.natAbs ++ tail)) =
        (decide (power < 0), Nat.toDigits 10 power.natAbs ++ tail) := by
    split
    · rename_i negative
      simp [splitSign, negative]
    · rename_i positive
      split
      · simp [splitSign, positive]
      · simp [splitSign_digits tail nonempty all, positive]
  rw [readExponent, if_pos (.inl rfl), sign]
  simp only [taken, dropped, List.isEmpty_iff, nonempty, if_false, value]
  split
  · rename_i negative
    simp only [decide_eq_true_eq] at negative
    rw [Int.ofNat_natAbs_of_nonpos negative.le, neg_neg]
  · rename_i positive
    simp only [decide_eq_true_eq, not_lt] at positive
    rw [Int.natAbs_of_nonneg positive]

/-- A whole number of 64 bits, with or without sign. -/
def IsWord (n : Int) : Prop := -2 ^ 63 ≤ n ∧ n < 2 ^ 64

theorem wholeNumber_unsigned (round : Rounding) {n : Nat} (small : n < 2 ^ 64) :
    wholeNumber round false (Nat.toDigits 10 n) = some (.integer n) := by
  simp only [wholeNumber, digitsValue_toDigits, Bool.false_eq_true, if_false]
  rw [if_pos small]

theorem wholeNumber_negative (round : Rounding) {n : Nat} (positive : 0 < n) (small : n ≤ 2 ^ 63) :
    wholeNumber round true (Nat.toDigits 10 n) = some (.integer (-n)) := by
  simp only [wholeNumber, digitsValue_toDigits, if_true]
  rw [if_pos ⟨positive, small⟩]

theorem readNumber_integer (round : Rounding) {n : Int} {tail : List Char} (word : IsWord n)
    (ends : Ends tail) : readNumber round (writeInteger n ++ tail) = some (.integer n, tail) := by
  have whole := isWhole_toDigits n.natAbs
  have parts (minus : Bool) := readUnsigned_parts round minus whole
    (no_digit_of_ends ends) (readFraction_of_ends ends) (readExponent_of_ends ends)
  simp only [Option.isSome_none, Bool.or_self, Bool.false_eq_true, if_false] at parts
  unfold writeInteger
  split
  · rename_i negative
    rw [List.cons_append, readNumber, parts true,
      wholeNumber_negative round (by omega) (by have := word.1; omega), Option.map_some,
      Int.ofNat_natAbs_of_nonpos negative.le, neg_neg]
  · rename_i positive
    apply readNumber_unsigned
    rw [parts false, wholeNumber_unsigned round (by have := word.2; omega), Option.map_some,
      Int.natAbs_of_nonneg (by omega)]

section Layout
variable {s : Scaled} {tail : List Char}

/-- A reader finds the decimal in a text without sign, up to the count of its zeros. -/
def ReadsAs (text : List Char) (s : Scaled) (tail : List Char) : Prop :=
  ∃ t : Scaled, t.value = s.value ∧ min s.exponent (-1) ≤ t.exponent ∧
    ∀ minus, readUnsigned exactly minus (text ++ tail) =
      some (.float (nearest minus t.digits t.exponent), tail)

theorem readUnsigned_exactly {whole rest left : List Char} {fraction : Option (List Char)}
    {exponent : Option Int} (minus : Bool) (isWhole : IsWhole whole)
    (stop : ∀ c ∈ rest.head?, c.isDigit = false) (fractionOk : readFraction rest = some (fraction, left))
    (exponentOk : readExponent left = some (exponent, tail))
    (inexact : (fraction.isSome || exponent.isSome) = true) :
    readUnsigned exactly minus (whole ++ rest) = some (.float (nearest minus
      (digitsValue (whole ++ fraction.getD [])) (exponent.getD 0 - (fraction.getD []).length)), tail) := by
  rw [readUnsigned_parts exactly minus isWhole stop fractionOk exponentOk, if_pos inexact]
  rfl

theorem no_digit_point (rest : List Char) : ∀ c ∈ ('.' :: rest).head?, c.isDigit = false := by
  rintro c first
  obtain rfl : '.' = c := by simpa using first
  rfl

theorem no_digit_letter (rest : List Char) : ∀ c ∈ ('e' :: rest).head?, c.isDigit = false := by
  rintro c first
  obtain rfl : 'e' = c := by simpa using first
  rfl

theorem readsAs_zero (zero : s.digits = 0) (ends : Ends tail) : ReadsAs ['0', '.', '0'] s tail := by
  refine ⟨⟨0, -1⟩, by simp [Scaled.value, zero], by simp, fun minus => ?_⟩
  have whole := isWhole_toDigits 0
  have fraction := readFraction_point (show ['0'] ≠ [] by simp) (by simp) (no_digit_of_ends ends)
  exact readUnsigned_exactly minus whole (no_digit_point _) fraction (readExponent_of_ends ends) rfl

theorem readsAs_whole (positive : s.digits ≠ 0) (up : 0 ≤ s.exponent) (ends : Ends tail) :
    ReadsAs (Nat.toDigits 10 s.digits ++ zeros s.exponent.toNat ++ ['.', '0']) s tail := by
  obtain ⟨k, same⟩ := Int.eq_ofNat_of_zero_le up
  rw [same, Int.toNat_natCast]
  have digits := digitsValue_toDigits s.digits
  have lead := toDigits_lead (Nat.pos_of_ne_zero positive)
  have isWhole : IsWhole (Nat.toDigits 10 s.digits ++ zeros k) := by
    apply isWhole_of_lead (by simp [Nat.toDigits_ne_nil])
    · intro c member
      rcases List.mem_append.mp member with inDigits | inZeros
      · exact isDigit_toDigits inDigits
      · exact isDigit_zeros inZeros
    · rw [List.head?_append_of_ne_nil _ Nat.toDigits_ne_nil]
      exact lead
  refine ⟨⟨s.digits * 10 ^ (k + 1), -1⟩, ?_, by simp, fun minus => ?_⟩
  · simp only [Scaled.value, same, zpow_natCast, zpow_neg, zpow_one]
    push_cast
    ring
  · have value : digitsValue (Nat.toDigits 10 s.digits ++ zeros k ++ ['0']) =
        s.digits * 10 ^ (k + 1) := by
      rw [List.append_assoc, show zeros k ++ ['0'] = zeros (k + 1) by
        simp [zeros, List.replicate_succ'], digitsValue_zeros, digits]
    rw [List.append_assoc, show ['.', '0'] ++ tail = '.' :: (['0'] ++ tail) from rfl,
      readUnsigned_exactly minus isWhole (no_digit_point _)
      (readFraction_point (by simp) (by simp) (no_digit_of_ends ends))
      (readExponent_of_ends ends) rfl]
    simp only [Option.getD_some, Option.getD_none, value]
    rfl

theorem readsAs_point (positive : s.digits ≠ 0) (down : s.exponent < 0)
    (inside : 0 < s.exponent + (Nat.toDigits 10 s.digits).length) (ends : Ends tail) :
    ReadsAs ((Nat.toDigits 10 s.digits).take (s.exponent + (Nat.toDigits 10 s.digits).length).toNat ++
      '.' :: (Nat.toDigits 10 s.digits).drop
        (s.exponent + (Nat.toDigits 10 s.digits).length).toNat) s tail := by
  have digits := digitsValue_toDigits s.digits
  have lead := toDigits_lead (Nat.pos_of_ne_zero positive)
  have all : ∀ c ∈ Nat.toDigits 10 s.digits, c.isDigit = true := fun _ => isDigit_toDigits
  generalize Nat.toDigits 10 s.digits = written at *
  obtain ⟨k, same⟩ := Int.eq_ofNat_of_zero_le inside.le
  rw [same, Int.toNat_natCast]
  have isWhole : IsWhole (written.take k) := by
    apply isWhole_of_lead
    · rw [Ne, List.take_eq_nil_iff]
      rintro (none_ | rfl)
      · omega
      · simp at inside
        omega
    · exact fun c member => all c (List.mem_of_mem_take member)
    · rwa [List.head?_take, if_neg (by omega)]
  refine ⟨s, rfl, by omega, fun minus => ?_⟩
  rw [List.append_assoc, List.cons_append, readUnsigned_exactly minus isWhole (no_digit_point _)
    (readFraction_point (by rw [Ne, List.drop_eq_nil_iff]; omega)
      (fun c member => all c (List.mem_of_mem_drop member)) (no_digit_of_ends ends))
    (readExponent_of_ends ends) rfl]
  simp only [Option.getD_some, Option.getD_none, List.take_append_drop, digits, List.length_drop]
  rw [show (0 : Int) - (written.length - k : Nat) = s.exponent by omega]

theorem readsAs_small
    (outside : s.exponent + (Nat.toDigits 10 s.digits).length ≤ 0) (ends : Ends tail) :
    ReadsAs ('0' :: '.' :: zeros (-(s.exponent + (Nat.toDigits 10 s.digits).length)).toNat ++
      Nat.toDigits 10 s.digits) s tail := by
  have digits := digitsValue_toDigits s.digits
  have all : ∀ c ∈ Nat.toDigits 10 s.digits, c.isDigit = true := fun _ => isDigit_toDigits
  have nonempty := @Nat.toDigits_ne_nil s.digits 10
  generalize Nat.toDigits 10 s.digits = written at *
  obtain ⟨k, same⟩ := Int.eq_ofNat_of_zero_le (show 0 ≤ -(s.exponent + written.length) by omega)
  rw [same, Int.toNat_natCast]
  refine ⟨s, rfl, by omega, fun minus => ?_⟩
  have allDigits : ∀ c ∈ zeros k ++ written, c.isDigit = true := by
    intro c member
    rcases List.mem_append.mp member with inZeros | inDigits
    · exact isDigit_zeros inZeros
    · exact all c inDigits
  have text : '0' :: '.' :: zeros k ++ written ++ tail =
      Nat.toDigits 10 0 ++ '.' :: (zeros k ++ written ++ tail) := by
    simp
  rw [text, readUnsigned_exactly minus (isWhole_toDigits 0) (no_digit_point _)
    (readFraction_point (by simp [nonempty]) allDigits (no_digit_of_ends ends))
    (readExponent_of_ends ends) rfl]
  have value : digitsValue (Nat.toDigits 10 0 ++ (zeros k ++ written)) = s.digits := by
    have := zeros_digitsValue written (k + 1)
    rw [digits] at this
    simpa [zeros, List.replicate_succ] using this
  have length : (zeros k ++ written).length = k + written.length := by simp [zeros]
  simp only [Option.getD_some, Option.getD_none, value, length]
  rw [show (0 : Int) - (k + written.length : Nat) = s.exponent by omega]

theorem readsAs_power (plus : Bool) (ends : Ends tail) :
    ReadsAs ((Nat.toDigits 10 s.digits).take 1 ++
      (if (Nat.toDigits 10 s.digits).length = 1 then [] else '.' :: (Nat.toDigits 10 s.digits).drop 1) ++
      'e' :: (if s.exponent + (Nat.toDigits 10 s.digits).length - 1 < 0 then ['-']
        else if plus then ['+'] else []) ++
      Nat.toDigits 10 (s.exponent + (Nat.toDigits 10 s.digits).length - 1).natAbs) s tail := by
  have digits := digitsValue_toDigits s.digits
  have all : ∀ c ∈ Nat.toDigits 10 s.digits, c.isDigit = true := fun _ => isDigit_toDigits
  have nonempty := @Nat.toDigits_ne_nil s.digits 10
  generalize Nat.toDigits 10 s.digits = written at *
  obtain ⟨c, rest, rfl⟩ := List.exists_cons_of_ne_nil nonempty
  have isWhole : IsWhole [c] := ⟨by simp, by simpa using all c (by simp), fun _ => rfl⟩
  have power := readExponent_power plus (s.exponent + (c :: rest).length - 1) ends
  generalize written : (if s.exponent + (c :: rest).length - 1 < 0 then ['-']
    else if plus then ['+'] else []) = sign at power ⊢
  refine ⟨s, rfl, by omega, fun minus => ?_⟩
  cases rest with
  | nil =>
    have text (more : List Char) : [c].take 1 ++ (if [c].length = 1 then [] else '.' :: [c].drop 1) ++
        'e' :: sign ++ more ++ tail = [c] ++ 'e' :: (sign ++ (more ++ tail)) := by
      simp
    rw [text, readUnsigned_exactly minus isWhole (no_digit_letter _) (readFraction.eq_2 _ (by simp)) power rfl]
    simp only [Option.getD_some, Option.getD_none, List.append_nil, digits]
    simp
  | cons d rest =>
    have text (more : List Char) : (c :: d :: rest).take 1 ++
        (if (c :: d :: rest).length = 1 then [] else '.' :: (c :: d :: rest).drop 1) ++
        'e' :: sign ++ more ++ tail = [c] ++ '.' :: ((d :: rest) ++ 'e' :: (sign ++ (more ++ tail))) := by
      simp
    rw [text, readUnsigned_exactly minus isWhole (no_digit_point _)
      (readFraction_point (by simp) (fun x member => all x (List.mem_cons_of_mem c member)) (no_digit_letter _))
      power rfl]
    simp only [Option.getD_some, List.singleton_append, digits]
    rw [show s.exponent + (c :: d :: rest).length - 1 - (d :: rest).length = s.exponent by
      simp only [List.length_cons]; omega]

theorem readsAs_size (layout : Layout) (s : Scaled) (ends : Ends tail) :
    ReadsAs (layout.size s) s tail := by
  unfold Layout.size
  dsimp only
  split
  · rename_i zero
    exact readsAs_zero zero ends
  · rename_i positive
    split
    · rename_i up
      exact readsAs_whole positive up.1 ends
    · rename_i large
      split
      · rename_i inside
        exact readsAs_point positive (by omega) inside.1 ends
      · split
        · rename_i outside
          exact readsAs_small outside.2 ends
        · exact readsAs_power layout.plus ends

end Layout

/-- The text of a finite binary fraction is read as the fraction itself. -/
theorem readNumber_float {x : Binary64} {tail : List Char} (layout : Layout)
    (finite : x.isFinite = true) (ends : Ends tail) :
    readNumber exactly (layout.write x ++ tail) = some (.float x, tail) := by
  obtain ⟨t, value, exponent, reads⟩ := readsAs_size layout (shortest x) ends
  have rounds : nearest x.negative t.digits t.exponent = x := by
    cases zero : x.isZero with
    | true =>
      have none_ : t.digits = 0 := by
        simpa [Scaled.value, shortest, zero, zpow_ne_zero] using value
      rw [none_]
      exact nearest_zero zero _
    | false =>
      obtain ⟨near, low⟩ := shortest_near finite zero
      exact nearest_of_near finite zero (value ▸ near) (by omega)
  unfold Layout.write
  cases sign : x.negative with
  | true =>
    rw [sign] at rounds
    rw [if_pos rfl, List.append_assoc, List.cons_append, List.nil_append, readNumber, reads, rounds]
  | false =>
    rw [sign] at rounds
    rw [if_neg (by simp), List.nil_append]
    apply readNumber_unsigned
    rw [reads, rounds]

end Stevedore.Json
