import Stevedore.Decimal.Shortest
import Stevedore.Proofs.Decimal.Rounding

/-! The shortest decimal of a binary number rounds to the number. -/
namespace Stevedore.Decimal
open Binary64

/-- The number that a decimal stands for. -/
def Scaled.value (s : Scaled) : ℚ := s.digits * 10 ^ s.exponent

theorem tenTo_pos (n : Int) : 0 < (tenTo n).1 ∧ 0 < (tenTo n).2 := by
  unfold tenTo
  split <;> constructor <;> positivity

theorem tenTo_ratio (n : Int) : ((tenTo n).1 : ℚ) / (tenTo n).2 = 10 ^ n := by
  unfold tenTo
  split
  · rename_i up
    obtain ⟨k, rfl⟩ := Int.eq_ofNat_of_zero_le up
    simp
  · rename_i down
    obtain ⟨k, same⟩ := Int.eq_ofNat_of_zero_le (show 0 ≤ -n by omega)
    obtain rfl : n = -(k : Int) := by omega
    simp

theorem magnitude_ratio (x : Binary64) :
    (x.magnitude.1 : ℚ) / x.magnitude.2 = x.mantissa * 2 ^ x.scale := by
  unfold magnitude
  split
  · rename_i up
    obtain ⟨k, same⟩ := Int.eq_ofNat_of_zero_le up
    simp [same]
  · rename_i down
    obtain ⟨k, same⟩ := Int.eq_ofNat_of_zero_le (show 0 ≤ -x.scale by omega)
    rw [same, show x.scale = -(k : Int) by omega]
    simp [div_eq_mul_inv]

theorem magnitude_den_pos (x : Binary64) : 0 < x.magnitude.2 := by
  unfold magnitude
  split <;> positivity

theorem magnitude_num_ne {x : Binary64} (nonzero : x.mantissa ≠ 0) : x.magnitude.1 ≠ 0 := by
  unfold magnitude
  split
  · positivity
  · exact nonzero

theorem interval_low {x : Binary64} (nonzero : x.mantissa ≠ 0) :
    ((intervalOf x).low : ℚ) = 4 * (x.mantissa - x.lowerGap) := by
  simp only [intervalOf, lowerGap]
  split
  · rw [Nat.cast_sub (by omega)]
    push_cast
    ring
  · rw [Nat.cast_sub (by omega)]
    push_cast
    ring

/-- The interval of a number holds the fractions near to it. -/
theorem holds_iff {x : Binary64} {num den : Nat} (nonzero : x.mantissa ≠ 0) (bottom : 0 < den) :
    (intervalOf x).holds num den = true ↔ x.Near (num / den) := by
  have bottomPos := scaledBy_den_pos (x.scale - 2) num bottom
  have positive : (0 : ℚ) < (scaledBy (x.scale - 2) num den).2 := by exact_mod_cast bottomPos
  have ratio := scaledBy_ratio (x.scale - 2) num den
  have low := interval_low nonzero
  have high : ((intervalOf x).high : ℚ) = 4 * (x.mantissa + 1 / 2) := by
    simp only [intervalOf]
    push_cast
    ring
  have unit : (2 : ℚ) ^ (x.scale - 2) = 2 ^ x.scale / 4 := by
    rw [zpow_sub₀ (by norm_num)]
    norm_num
  have power : (0 : ℚ) < 2 ^ (x.scale - 2) := by positivity
  have atLeast (k : Nat) : k * (scaledBy (x.scale - 2) num den).2 ≤
      (scaledBy (x.scale - 2) num den).1 ↔ (k : ℚ) * 2 ^ (x.scale - 2) ≤ num / den := by
    rw [← le_div_iff₀ power, ← ratio, le_div_iff₀ positive]
    norm_cast
  have atMost (k : Nat) : (scaledBy (x.scale - 2) num den).1 ≤
      k * (scaledBy (x.scale - 2) num den).2 ↔ (num : ℚ) / den ≤ k * 2 ^ (x.scale - 2) := by
    rw [← div_le_iff₀ power, ← ratio, div_le_iff₀ positive]
    norm_cast
  have lowSame : ((intervalOf x).low : ℚ) * 2 ^ (x.scale - 2) =
      (x.mantissa - x.lowerGap) * 2 ^ x.scale := by
    rw [low, unit]
    ring
  have highSame : ((intervalOf x).high : ℚ) * 2 ^ (x.scale - 2) =
      (x.mantissa + 1 / 2) * 2 ^ x.scale := by
    rw [high, unit]
    ring
  have closed : (intervalOf x).closed = decide (x.mantissa % 2 = 0) := rfl
  simp only [Interval.holds, show (intervalOf x).unit = x.scale - 2 from rfl, closed]
  by_cases even : x.mantissa % 2 = 0
  · simp only [even, decide_true, if_true, Bool.and_eq_true, decide_eq_true_eq, atLeast, atMost,
      lowSame, highSame, Near, true_or, and_true]
  · simp only [even, decide_false, Bool.false_eq_true, if_false, Bool.and_eq_true,
      decide_eq_true_eq, ← not_le, atLeast, atMost, lowSame, highSame, Near, false_or]
    simp only [not_le]
    exact ⟨fun ⟨above, below⟩ => ⟨above.le, below.le, above, below⟩, fun near => near.2.2⟩

theorem value_eq_ratio (c : Nat) (step : Int) :
    (⟨c, step⟩ : Scaled).value = ((c * (tenTo step).1 : Nat) : ℚ) / (tenTo step).2 := by
  rw [Scaled.value, ← tenTo_ratio step]
  push_cast
  ring

/-- A point that a grid offers lies on the grid and near the number. -/
theorem onGrid_near {x : Binary64} {num den : Nat} {step : Int} {s : Scaled}
    (nonzero : x.mantissa ≠ 0) (found : onGrid (intervalOf x) num den step = some s) :
    x.Near s.value ∧ s.exponent = step := by
  have near (c : Nat) (held : (intervalOf x).holds (c * (tenTo step).1) (tenTo step).2 = true) :
      x.Near (⟨c, step⟩ : Scaled).value := by
    rw [value_eq_ratio]
    exact (holds_iff nonzero (tenTo_pos step).2).mp held
  unfold onGrid at found
  dsimp only at found
  split at found
  · contradiction
  · rename_i below _
    obtain rfl := Option.some.inj found
    exact ⟨near _ below, rfl⟩
  · rename_i _ above
    obtain rfl := Option.some.inj found
    exact ⟨near _ above, rfl⟩
  · rename_i below above
    obtain rfl := Option.some.inj found
    refine ⟨near _ ?_, rfl⟩
    split
    · exact below
    · split
      · exact above
      · rcases Nat.mod_two_eq_zero_or_one (num * (tenTo step).2 / (den * (tenTo step).1)) with
          even | odd
        · rw [even]
          exact below
        · rw [odd]
          exact above

/-- The next point of a grid above a fraction is at most a step away. -/
theorem next_point {num den : Nat} (step : Int) (bottom : 0 < den) :
    let c := num * (tenTo step).2 / (den * (tenTo step).1) + 1
    (num : ℚ) / den < (⟨c, step⟩ : Scaled).value ∧
      (⟨c, step⟩ : Scaled).value ≤ num / den + 10 ^ step := by
  intro c
  obtain ⟨tenNum, tenDen⟩ := tenTo_pos step
  have denPos : (0 : ℚ) < den := by exact_mod_cast bottom
  have aPos : (0 : ℚ) < (tenTo step).1 := by exact_mod_cast tenNum
  have bPos : (0 : ℚ) < (tenTo step).2 := by exact_mod_cast tenDen
  have split := Nat.div_add_mod (num * (tenTo step).2) (den * (tenTo step).1)
  have rest := Nat.mod_lt (num * (tenTo step).2) (Nat.mul_pos bottom tenNum)
  have quotient : (num : ℚ) * (tenTo step).2 =
      den * (tenTo step).1 * (c - 1) + (num * (tenTo step).2 % (den * (tenTo step).1) : Nat) := by
    have := congrArg (Nat.cast : Nat → ℚ) split
    push_cast at this
    simp only [c]
    push_cast
    linarith
  have less : ((num * (tenTo step).2 % (den * (tenTo step).1) : Nat) : ℚ) <
      den * (tenTo step).1 := by exact_mod_cast rest
  have least : (0 : ℚ) ≤ (num * (tenTo step).2 % (den * (tenTo step).1) : Nat) := Nat.cast_nonneg _
  rw [Scaled.value, ← tenTo_ratio step]
  constructor
  · rw [div_lt_iff₀ denPos, ← mul_div_assoc, div_mul_eq_mul_div, lt_div_iff₀ bPos]
    linarith
  · rw [← mul_div_assoc, div_add_div _ _ denPos.ne' bPos.ne', div_le_div_iff₀ bPos (by positivity)]
    nlinarith

/-- A grid finer than half of a number's last digit offers a point. -/
theorem onGrid_isSome {x : Binary64} {step : Int} (nonzero : x.mantissa ≠ 0)
    (fine : (10 : ℚ) ^ step < 2 ^ x.scale / 2) :
    (onGrid (intervalOf x) x.magnitude.1 x.magnitude.2 step).isSome := by
  obtain ⟨tenNum, tenDen⟩ := tenTo_pos step
  have bottom := magnitude_den_pos x
  have held : (intervalOf x).holds
      ((x.magnitude.1 * (tenTo step).2 / (x.magnitude.2 * (tenTo step).1) + 1) * (tenTo step).1)
      (tenTo step).2 = true := by
    rw [holds_iff nonzero tenDen, ← value_eq_ratio]
    obtain ⟨above, below⟩ := next_point step bottom
    rw [magnitude_ratio] at above below
    generalize Scaled.value _ = point at above below ⊢
    have power : (0 : ℚ) < 2 ^ x.scale := by positivity
    have gap : 0 < x.lowerGap := by
      unfold lowerGap
      split <;> norm_num
    have low : (x.mantissa - x.lowerGap) * 2 ^ x.scale < point := by
      nlinarith
    have high : point < (x.mantissa + 1 / 2) * 2 ^ x.scale := by
      linarith
    exact ⟨low.le, high.le, .inr ⟨low, high⟩⟩
  simp only [onGrid, held]
  split <;> simp_all

theorem firstGrid_of_some {i : Interval} {num den : Nat} {lead : Int} (fuel count : Nat)
    (found : ∃ k, k < fuel ∧ (onGrid i num den (lead + 1 - (count + k : Nat))).isSome) :
    ∃ k, k < fuel ∧
      onGrid i num den (lead + 1 - (count + k : Nat)) = some (firstGrid i num den lead fuel count) := by
  induction fuel generalizing count with
  | zero => omega
  | succ fuel ih =>
    rw [firstGrid]
    cases first : onGrid i num den (lead + 1 - count) with
    | some s => exact ⟨0, by omega, by simpa using first⟩
    | none =>
      obtain ⟨k, bound, isSome⟩ := found
      cases k with
      | zero => simp [first] at isSome
      | succ k =>
        have later : count + (k + 1) = count + 1 + k := by omega
        rw [later] at isSome
        obtain ⟨j, bound', same⟩ := ih (count + 1) ⟨k, by omega, isSome⟩
        exact ⟨j + 1, by omega, by rw [show count + (j + 1) = count + 1 + j by omega]; exact same⟩

theorem stripZeros_value (fuel : Nat) (s : Scaled) : (stripZeros fuel s).value = s.value := by
  induction fuel generalizing s with
  | zero => rfl
  | succ fuel ih =>
    rw [stripZeros]
    split
    · rename_i zero
      rw [ih]
      have tens : s.digits = 10 * (s.digits / 10) := by omega
      simp only [Scaled.value]
      rw [zpow_add₀ (by norm_num), zpow_one]
      conv_rhs => rw [tens]
      push_cast
      ring
    · rfl

theorem stripZeros_exponent (fuel : Nat) (s : Scaled) :
    s.exponent ≤ (stripZeros fuel s).exponent := by
  induction fuel generalizing s with
  | zero => exact le_refl _
  | succ fuel ih =>
    rw [stripZeros]
    split
    · have := ih ⟨s.digits / 10, s.exponent + 1⟩
      simp only at this
      omega
    · exact le_refl _

theorem raised_le {num den : Nat} {k : Int} (bottom : 0 < den) (low : (10 : ℚ) ^ k ≤ num / den) :
    (10 : ℚ) ^ raised num den k ≤ num / den ∧ k ≤ raised num den k := by
  have denPos : (0 : ℚ) < den := by exact_mod_cast bottom
  have bPos : (0 : ℚ) < (tenTo (k + 1)).2 := by exact_mod_cast (tenTo_pos (k + 1)).2
  unfold raised
  dsimp only
  split
  · rename_i held
    simp only [atMost, decide_eq_true_eq] at held
    refine ⟨?_, by omega⟩
    rw [← tenTo_ratio, div_le_div_iff₀ bPos denPos]
    exact_mod_cast held
  · exact ⟨low, le_refl k⟩

/-- Ten to a power that is found by a logarithm is at most the power of two. -/
theorem ten_le_two {n : Int} (low : -1100 ≤ n) (high : n ≤ 1100) :
    (10 : ℚ) ^ (n * 30103 / 100000 - 1) ≤ 2 ^ n := by
  have up : ∀ k < 1101, 10 ^ (k * 30103 / 100000) ≤ 10 * 2 ^ k := by decide +kernel
  have down : ∀ k < 1101, 2 ^ k ≤ 10 ^ ((k * 30103 + 99999) / 100000) := by decide +kernel
  have ten : (10 : ℚ) ≠ 0 := by norm_num
  rcases Int.le_total 0 n with sign | sign
  · obtain ⟨k, rfl⟩ := Int.eq_ofNat_of_zero_le sign
    have power : ((10 ^ (k * 30103 / 100000) : Nat) : ℚ) ≤ (10 * 2 ^ k : Nat) := by
      exact_mod_cast up k (by omega)
    push_cast at power
    rw [zpow_sub₀ ten, zpow_one, div_le_iff₀ (by norm_num),
      show (k : Int) * 30103 / 100000 = (k * 30103 / 100000 : Nat) by omega, zpow_natCast,
      zpow_natCast]
    linarith
  · obtain ⟨k, same⟩ := Int.eq_ofNat_of_zero_le (show 0 ≤ -n by omega)
    obtain rfl : n = -(k : Int) := by omega
    have power : ((2 ^ k : Nat) : ℚ) ≤ (10 ^ ((k * 30103 + 99999) / 100000) : Nat) := by
      exact_mod_cast down k (by omega)
    push_cast at power
    rw [show -(k : Int) * 30103 / 100000 = -((k * 30103 + 99999) / 100000 : Nat) by omega,
      zpow_sub₀ ten, zpow_neg, zpow_neg, zpow_natCast, zpow_natCast, zpow_one]
    have inverse := inv_anti₀ (by positivity : (0 : ℚ) < 2 ^ k) power
    have positive : (0 : ℚ) < (10 ^ ((k * 30103 + 99999) / 100000))⁻¹ := by positivity
    linarith

theorem log_bounds {x : Binary64} (finite : x.isFinite = true) (nonzero : x.mantissa ≠ 0) :
    -1100 ≤ (Nat.log2 x.magnitude.1 : Int) - Nat.log2 x.magnitude.2 - 1 ∧
      (Nat.log2 x.magnitude.1 : Int) - Nat.log2 x.magnitude.2 - 1 ≤ 1100 := by
  have bottom := magnitude_den_pos x
  have value := magnitude_ratio x
  have low : (2 : ℚ) ^ (-1074 : Int) ≤ x.mantissa * 2 ^ x.scale := by
    have least : (1 : ℚ) ≤ x.mantissa := by exact_mod_cast Nat.one_le_iff_ne_zero.mpr nonzero
    have grows : (2 : ℚ) ^ (-1074 : Int) ≤ 2 ^ x.scale :=
      zpow_le_zpow_right₀ (by norm_num) x.scale_ge
    have power : (0 : ℚ) < 2 ^ x.scale := by positivity
    nlinarith
  have high : (x.mantissa : ℚ) * 2 ^ x.scale < 2 ^ (1024 : Int) := by
    have power : (0 : ℚ) < 2 ^ x.scale := by positivity
    exact lt_of_lt_of_le (mul_lt_mul_of_pos_right (by linarith) power) (next_le finite)
  have top := magnitude_num_ne nonzero
  obtain ⟨above, below⟩ := ratio_bounds top bottom.ne'
  rw [value] at above below
  have one : (1 : ℚ) < 2 := by norm_num
  have less := (zpow_lt_zpow_iff_right₀ one).mp (lt_of_lt_of_le above high.le)
  have more := (zpow_lt_zpow_iff_right₀ one).mp (lt_of_le_of_lt low below)
  omega

theorem leadingExponent_le {x : Binary64} (finite : x.isFinite = true)
    (nonzero : x.mantissa ≠ 0) :
    (10 : ℚ) ^ leadingExponent x.magnitude.1 x.magnitude.2 ≤ x.mantissa * 2 ^ x.scale ∧
      -340 ≤ leadingExponent x.magnitude.1 x.magnitude.2 := by
  have bottom := magnitude_den_pos x
  obtain ⟨low, high⟩ := log_bounds finite nonzero
  have value := magnitude_ratio x
  have top := magnitude_num_ne nonzero
  have guess := (ten_le_two low high).trans (ratio_bounds top bottom.ne').1.le
  obtain ⟨once, first⟩ := raised_le bottom guess
  obtain ⟨twice, second⟩ := raised_le bottom once
  obtain ⟨thrice, third⟩ := raised_le bottom twice
  rw [← value]
  exact ⟨thrice, by simp only [leadingExponent]; omega⟩

theorem mantissa_ne_zero {x : Binary64} (nonzero : x.isZero = false) : x.mantissa ≠ 0 := by
  unfold mantissa
  split
  · rename_i least
    simpa [isZero, least] using nonzero
  · omega

/-- Eighteen digits make a grid that is fine enough. -/
theorem shortest_near {x : Binary64} (finite : x.isFinite = true) (nonzero : x.isZero = false) :
    x.Near (shortest x).value ∧ -400 ≤ (shortest x).exponent := by
  have some := mantissa_ne_zero nonzero
  obtain ⟨low, least⟩ := leadingExponent_le finite some
  have fine : (10 : ℚ) ^ (leadingExponent x.magnitude.1 x.magnitude.2 + 1 - (1 + 17 : Nat)) <
      2 ^ x.scale / 2 := by
    have most : (x.mantissa : ℚ) < 2 ^ 53 := by exact_mod_cast x.mantissa_lt
    have power : (0 : ℚ) < 2 ^ x.scale := by positivity
    rw [show leadingExponent x.magnitude.1 x.magnitude.2 + 1 - (1 + 17 : Nat) =
      leadingExponent x.magnitude.1 x.magnitude.2 - 17 by omega, zpow_sub₀ (by norm_num),
      div_lt_iff₀ (by positivity)]
    have : (10 : ℚ) ^ (17 : Int) = 10 ^ 17 := by norm_num
    rw [this]
    nlinarith
  obtain ⟨k, bound, found⟩ := firstGrid_of_some 18 1 ⟨17, by omega, onGrid_isSome some fine⟩
  obtain ⟨near, exponent⟩ := onGrid_near some found
  have stripped := stripZeros_exponent 20 (firstGrid (intervalOf x) x.magnitude.1 x.magnitude.2
    (leadingExponent x.magnitude.1 x.magnitude.2) 18 1)
  simp only [shortest, nonzero, Bool.false_eq_true, if_false]
  rw [stripZeros_value]
  exact ⟨near, by omega⟩

end Stevedore.Decimal
