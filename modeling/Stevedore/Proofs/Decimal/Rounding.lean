import Mathlib.Algebra.Order.Field.Power
import Mathlib.Algebra.Order.Field.Rat
import Mathlib.Tactic.FieldSimp
import Mathlib.Tactic.Linarith
import Mathlib.Tactic.NormNum
import Mathlib.Tactic.Positivity
import Mathlib.Tactic.Ring
import Stevedore.Decimal.Binary64

/-! A fraction close enough to a binary number rounds to it. -/
namespace Stevedore.Binary64

theorem roundQuotient_eq {num den k : Nat} (some : 0 < den) (below : 2 * k * den ≤ 2 * num + den)
    (above : 2 * num ≤ 2 * k * den + den)
    (tie : k % 2 = 0 ∨ 2 * k * den < 2 * num + den ∧ 2 * num < 2 * k * den + den) :
    roundQuotient num den = k := by
  have split : den * (num / den) + num % den = num := Nat.div_add_mod num den
  have rest : num % den < den := Nat.mod_lt num some
  simp only [roundQuotient]
  generalize num / den = q at *
  generalize num % den = r at *
  have least : q ≤ k := by
    by_contra less
    have : (k + 1) * den ≤ q * den := Nat.mul_le_mul_right den (by omega)
    nlinarith
  have most : k ≤ q + 1 := by
    by_contra more
    have : (q + 2) * den ≤ k * den := Nat.mul_le_mul_right den (by omega)
    nlinarith
  obtain rfl | rfl : k = q ∨ k = q + 1 := by omega
  · have product : 2 * k * den = 2 * (den * k) := by ring
    split_ifs <;> omega
  · have product : 2 * (q + 1) * den = 2 * (den * q) + 2 * den := by ring
    split_ifs <;> omega

theorem roundQuotient_of_near {num den k : Nat} (some : 0 < den)
    (below : (k : ℚ) - 1 / 2 ≤ num / den) (above : (num : ℚ) / den ≤ k + 1 / 2)
    (tie : k % 2 = 0 ∨ (k : ℚ) - 1 / 2 < num / den ∧ (num : ℚ) / den < k + 1 / 2) :
    roundQuotient num den = k := by
  have positive : (0 : ℚ) < den := by exact_mod_cast some
  rw [le_div_iff₀ positive] at below
  rw [div_le_iff₀ positive] at above
  rw [lt_div_iff₀ positive, div_lt_iff₀ positive] at tie
  apply roundQuotient_eq some
  · have : 2 * (k : ℚ) * den ≤ 2 * num + den := by linarith
    exact_mod_cast this
  · have : 2 * (num : ℚ) ≤ 2 * k * den + den := by linarith
    exact_mod_cast this
  · rcases tie with even | ⟨left, right⟩
    · exact .inl even
    · have left' : 2 * (k : ℚ) * den < 2 * num + den := by linarith
      have right' : 2 * (num : ℚ) < 2 * k * den + den := by linarith
      exact .inr ⟨by exact_mod_cast left', by exact_mod_cast right'⟩

theorem scaledBy_den_pos (scale : Int) (num : Nat) {den : Nat} (some : 0 < den) :
    0 < (scaledBy scale num den).2 := by
  unfold scaledBy
  split
  · positivity
  · exact some

theorem scaledBy_ratio (scale : Int) (num den : Nat) :
    ((scaledBy scale num den).1 : ℚ) / (scaledBy scale num den).2 =
      (num : ℚ) / den / 2 ^ scale := by
  unfold scaledBy
  split
  · rename_i up
    obtain ⟨n, rfl⟩ := Int.eq_ofNat_of_zero_le up
    simp only [Int.toNat_natCast, Nat.cast_mul, Nat.cast_pow, zpow_natCast, div_div,
      Nat.cast_ofNat]
  · rename_i down
    obtain ⟨n, same⟩ := Int.eq_ofNat_of_zero_le (show 0 ≤ -scale by omega)
    obtain rfl : scale = -(n : Int) := by omega
    simp only [neg_neg, Int.toNat_natCast, Nat.cast_mul, Nat.cast_pow, zpow_neg, zpow_natCast,
      Nat.cast_ofNat, div_inv_eq_mul]
    ring

theorem ratio_bounds {num den : Nat} (top : num ≠ 0) (bottom : den ≠ 0) :
    (2 : ℚ) ^ ((Nat.log2 num : Int) - Nat.log2 den - 1) < num / den ∧
      (num : ℚ) / den < 2 ^ ((Nat.log2 num : Int) - Nat.log2 den + 1) := by
  have positive : (0 : ℚ) < den := by exact_mod_cast Nat.pos_of_ne_zero bottom
  have numLow : (2 : ℚ) ^ (Nat.log2 num : Int) ≤ num := by
    rw [zpow_natCast]
    exact_mod_cast Nat.log2_self_le top
  have numHigh : (num : ℚ) < 2 ^ ((Nat.log2 num : Int) + 1) := by
    have := @Nat.lt_log2_self num
    exact_mod_cast this
  have denLow : (2 : ℚ) ^ (Nat.log2 den : Int) ≤ den := by
    rw [zpow_natCast]
    exact_mod_cast Nat.log2_self_le bottom
  have denHigh : (den : ℚ) < 2 ^ ((Nat.log2 den : Int) + 1) := by
    have := @Nat.lt_log2_self den
    exact_mod_cast this
  have two : (2 : ℚ) ≠ 0 := by norm_num
  constructor
  · rw [lt_div_iff₀ positive]
    calc (2 : ℚ) ^ ((Nat.log2 num : Int) - Nat.log2 den - 1) * den
        < 2 ^ ((Nat.log2 num : Int) - Nat.log2 den - 1) * 2 ^ ((Nat.log2 den : Int) + 1) := by
          exact mul_lt_mul_of_pos_left denHigh (by positivity)
      _ = 2 ^ (Nat.log2 num : Int) := by
          rw [← zpow_add₀ two]
          congr 1
          ring
      _ ≤ num := numLow
  · rw [div_lt_iff₀ positive]
    calc (num : ℚ) < 2 ^ ((Nat.log2 num : Int) + 1) := numHigh
      _ = 2 ^ ((Nat.log2 num : Int) - Nat.log2 den + 1) * 2 ^ (Nat.log2 den : Int) := by
          rw [← zpow_add₀ two]
          congr 1
          ring
      _ ≤ 2 ^ ((Nat.log2 num : Int) - Nat.log2 den + 1) * den := by
          exact mul_le_mul_of_nonneg_left denLow (by positivity)

theorem fullScale_bounds {num den : Nat} (top : num ≠ 0) (bottom : den ≠ 0) :
    (2 : ℚ) ^ (52 + fullScale num den) ≤ num / den ∧
      (num : ℚ) / den < 2 ^ (53 + fullScale num den) := by
  obtain ⟨low, high⟩ := ratio_bounds top bottom
  unfold fullScale
  dsimp only
  set guess : Int := (Nat.log2 num : Int) - Nat.log2 den - 52 with guessDef
  have bottomPos := scaledBy_den_pos guess num (Nat.pos_of_ne_zero bottom)
  have ratio := scaledBy_ratio guess num den
  set n := (scaledBy guess num den).1
  set d := (scaledBy guess num den).2
  have positive : (0 : ℚ) < d := by exact_mod_cast bottomPos
  have power : (0 : ℚ) < 2 ^ guess := by positivity
  have two : (2 : ℚ) ≠ 0 := by norm_num
  have whole : n / d < 2 ^ 52 ↔ (num : ℚ) / den < 2 ^ (52 + guess) := by
    rw [Nat.div_lt_iff_lt_mul bottomPos, zpow_add₀ two, ← div_lt_iff₀ power, ← ratio,
      div_lt_iff₀ positive]
    norm_cast
  split
  · rename_i small
    rw [whole] at small
    rw [show 52 + (guess - 1) = (Nat.log2 num : Int) - Nat.log2 den - 1 by omega,
      show 53 + (guess - 1) = 52 + guess by omega]
    exact ⟨low.le, small⟩
  · rename_i large
    rw [whole, not_lt] at large
    rw [show 53 + guess = (Nat.log2 num : Int) - Nat.log2 den + 1 by omega]
    exact ⟨large, high⟩

theorem fullScale_eq {num den : Nat} {scale : Int} (top : num ≠ 0) (bottom : den ≠ 0)
    (low : (2 : ℚ) ^ (52 + scale) ≤ num / den) (high : (num : ℚ) / den < 2 ^ (53 + scale)) :
    fullScale num den = scale := by
  obtain ⟨low', high'⟩ := fullScale_bounds top bottom
  have less := (zpow_lt_zpow_iff_right₀ (by norm_num : (1 : ℚ) < 2)).mp (lt_of_le_of_lt low' high)
  have more := (zpow_lt_zpow_iff_right₀ (by norm_num : (1 : ℚ) < 2)).mp (lt_of_le_of_lt low high')
  omega

theorem fullScale_lt {num den : Nat} {scale : Int} (top : num ≠ 0) (bottom : den ≠ 0)
    (high : (num : ℚ) / den < 2 ^ (52 + scale)) : fullScale num den < scale := by
  obtain ⟨low', -⟩ := fullScale_bounds top bottom
  have less := (zpow_lt_zpow_iff_right₀ (by norm_num : (1 : ℚ) < 2)).mp (lt_of_le_of_lt low' high)
  omega

theorem bits_split (x : Binary64) : x.bits.toNat =
    (if x.negative then 2 ^ 63 else 0) + x.exponentField * 2 ^ 52 + x.fractionField := by
  have bound := x.bits.toNat_lt
  simp only [negative, exponentField, fractionField, decide_eq_true_eq]
  split <;> omega

theorem exponentField_lt (x : Binary64) : x.exponentField < 2048 := Nat.mod_lt _ (by decide)

theorem fractionField_lt (x : Binary64) : x.fractionField < 2 ^ 52 := Nat.mod_lt _ (by decide)

theorem mantissa_lt (x : Binary64) : x.mantissa < 2 ^ 53 := by
  have := x.fractionField_lt
  unfold mantissa
  split <;> omega

theorem encode_eq {x : Binary64} {scale : Int} {q : Nat} (finite : x.isFinite = true)
    (full : ¬q < 2 ^ 52)
    (same : (scale + 1074).toNat * 2 ^ 52 + q = x.exponentField * 2 ^ 52 + x.fractionField) :
    encode x.negative scale q = x := by
  have bits := x.bits_split
  have fraction := x.fractionField_lt
  have exponent := x.exponentField_lt
  have least : x.exponentField ≠ 2047 := by simpa [isFinite] using finite
  unfold encode
  rw [if_neg full, same, if_neg (by omega), ← Nat.add_assoc, ← bits, UInt64.ofNat_toNat]

theorem encode_self {x : Binary64} (finite : x.isFinite = true) :
    encode x.negative x.scale x.mantissa = x := by
  have bits := x.bits_split
  have fraction := x.fractionField_lt
  by_cases least : x.exponentField = 0
  · unfold encode mantissa
    rw [if_pos least, if_pos fraction]
    rw [least, Nat.zero_mul, Nat.add_zero] at bits
    rw [← bits, UInt64.ofNat_toNat]
  · apply encode_eq finite
    · unfold mantissa
      rw [if_neg least]
      omega
    · unfold mantissa scale
      rw [if_neg least, if_neg least]
      omega

/-- A power of two may be given with one more digit. -/
theorem encode_carry {x : Binary64} (finite : x.isFinite = true) (power : x.mantissa = 2 ^ 52)
    (more : 1 < x.exponentField) : encode x.negative (x.scale - 1) (2 ^ 53) = x := by
  have least : x.exponentField ≠ 0 := by omega
  unfold mantissa at power
  rw [if_neg least] at power
  apply encode_eq finite
  · decide
  · unfold scale
    rw [if_neg least]
    omega

/-- How far below a number the fractions go that round to it, in units of its last digit. -/
def lowerGap (x : Binary64) : ℚ := if x.mantissa = 2 ^ 52 ∧ 1 < x.exponentField then 1 / 4 else 1 / 2

/-- A fraction lies between a number and the middle to each of its neighbours; the middle itself is
as near as that only to a number with an even last digit. -/
def Near (x : Binary64) (ratio : ℚ) : Prop :=
  (x.mantissa - x.lowerGap) * 2 ^ x.scale ≤ ratio ∧ ratio ≤ (x.mantissa + 1 / 2) * 2 ^ x.scale ∧
    (x.mantissa % 2 = 0 ∨
      (x.mantissa - x.lowerGap) * 2 ^ x.scale < ratio ∧ ratio < (x.mantissa + 1 / 2) * 2 ^ x.scale)

theorem lowerGap_le (x : Binary64) : x.lowerGap ≤ 1 / 2 := by
  unfold lowerGap
  split <;> norm_num

theorem scale_ge (x : Binary64) : -1074 ≤ x.scale := by
  unfold scale
  split <;> omega

theorem scale_le {x : Binary64} (finite : x.isFinite = true) : x.scale ≤ 971 := by
  have bound := x.exponentField_lt
  simp only [isFinite, bne_iff_ne, ne_eq] at finite
  unfold scale
  split <;> omega

theorem next_le {x : Binary64} (finite : x.isFinite = true) :
    ((x.mantissa : ℚ) + 1) * 2 ^ x.scale ≤ 2 ^ (1024 : Int) := by
  have most : (x.mantissa : ℚ) + 1 ≤ 2 ^ (53 : Int) := by
    have below := x.mantissa_lt
    have most : x.mantissa + 1 ≤ 2 ^ 53 := by omega
    exact_mod_cast most
  have scale := scale_le finite
  have power : (0 : ℚ) < 2 ^ x.scale := by positivity
  calc ((x.mantissa : ℚ) + 1) * 2 ^ x.scale
      ≤ 2 ^ (53 : Int) * 2 ^ x.scale := mul_le_mul_of_nonneg_right most power.le
    _ = 2 ^ (53 + x.scale) := (zpow_add₀ (by norm_num) _ _).symm
    _ ≤ 2 ^ (1024 : Int) := zpow_le_zpow_right₀ (by norm_num) (by omega)

theorem Near.scaled {x : Binary64} {ratio : ℚ} (near : x.Near ratio) :
    x.mantissa - x.lowerGap ≤ ratio / 2 ^ x.scale ∧ ratio / 2 ^ x.scale ≤ x.mantissa + 1 / 2 ∧
      (x.mantissa % 2 = 0 ∨ x.mantissa - x.lowerGap < ratio / 2 ^ x.scale ∧
        ratio / 2 ^ x.scale < x.mantissa + 1 / 2) := by
  have power : (0 : ℚ) < 2 ^ x.scale := by positivity
  rw [le_div_iff₀ power, div_le_iff₀ power, lt_div_iff₀ power, div_lt_iff₀ power]
  exact near

theorem Near.pos {x : Binary64} {ratio : ℚ} (some : x.mantissa ≠ 0) (near : x.Near ratio) :
    0 < ratio := by
  have least : (1 : ℚ) ≤ x.mantissa := by exact_mod_cast Nat.one_le_iff_ne_zero.mpr some
  have gap := x.lowerGap_le
  have power : (0 : ℚ) < 2 ^ x.scale := by positivity
  have : 0 < (x.mantissa - x.lowerGap) * 2 ^ x.scale := by
    apply mul_pos _ power
    linarith
  linarith [near.1]

theorem round_at_scale {x : Binary64} {num den : Nat} (finite : x.isFinite = true) (top : num ≠ 0)
    (bottom : den ≠ 0) (near : x.Near (num / den))
    (scale : max (fullScale num den) (-1074) = x.scale) : ofRatio x.negative num den = x := by
  obtain ⟨low, high, tie⟩ := near.scaled
  have gap := x.lowerGap_le
  unfold ofRatio
  rw [if_neg top, scale]
  have exact_ : roundQuotient (scaledBy x.scale num den).1 (scaledBy x.scale num den).2 =
      x.mantissa := by
    apply roundQuotient_of_near (scaledBy_den_pos _ _ (Nat.pos_of_ne_zero bottom))
    · rw [scaledBy_ratio]
      linarith
    · rw [scaledBy_ratio]
      exact high
    · rw [scaledBy_ratio]
      rcases tie with even | ⟨above, below⟩
      · exact .inl even
      · exact .inr ⟨by linarith, below⟩
  simp only [exact_]
  exact encode_self finite

/-- Below a power of two the digits are half as far apart. -/
theorem round_below_power {x : Binary64} {num den : Nat} (finite : x.isFinite = true)
    (top : num ≠ 0) (bottom : den ≠ 0) (near : x.Near (num / den)) (more : 1 < x.exponentField)
    (full : (num : ℚ) / den < 2 ^ (52 + x.scale)) : ofRatio x.negative num den = x := by
  obtain ⟨low, -, -⟩ := near.scaled
  have gap := x.lowerGap_le
  have two : (2 : ℚ) ≠ 0 := by norm_num
  have power : (0 : ℚ) < 2 ^ x.scale := by positivity
  have numeral : (2 : ℚ) ^ (52 : Int) = 2 ^ 52 := by norm_num
  rw [zpow_add₀ two, ← div_lt_iff₀ power, numeral] at full
  have least : 2 ^ 52 ≤ x.mantissa := by
    unfold mantissa
    rw [if_neg (by omega)]
    omega
  have mantissa : x.mantissa = 2 ^ 52 := by
    apply Nat.le_antisymm _ least
    by_contra larger
    have : 2 ^ 52 + 1 ≤ x.mantissa := by omega
    have : (2 : ℚ) ^ 52 + 1 ≤ x.mantissa := by exact_mod_cast this
    linarith
  have quarter : x.lowerGap = 1 / 4 := if_pos ⟨mantissa, more⟩
  have value : (x.mantissa : ℚ) = 2 ^ 52 := by rw [mantissa]; norm_num
  rw [quarter, value] at low
  have scale : fullScale num den = x.scale - 1 := by
    apply fullScale_eq top bottom
    · rw [show 52 + (x.scale - 1) = 51 + x.scale by ring, zpow_add₀ two, ← le_div_iff₀ power]
      have : (2 : ℚ) ^ (51 : Int) = 2 ^ 51 := by norm_num
      rw [this]
      linarith
    · rw [show 53 + (x.scale - 1) = 52 + x.scale by ring, zpow_add₀ two, ← div_lt_iff₀ power, numeral]
      exact full
  have lowest : -1074 ≤ x.scale - 1 := by
    unfold Binary64.scale
    rw [if_neg (by omega)]
    omega
  have doubled : (num : ℚ) / den / 2 ^ (x.scale - 1) = 2 * (num / den / 2 ^ x.scale) := by
    rw [zpow_sub₀ two, zpow_one]
    field_simp
  have exact_ : roundQuotient (scaledBy (x.scale - 1) num den).1
      (scaledBy (x.scale - 1) num den).2 = 2 ^ 53 := by
    apply roundQuotient_of_near (scaledBy_den_pos _ _ (Nat.pos_of_ne_zero bottom))
    · rw [scaledBy_ratio, doubled]
      push_cast
      linarith
    · rw [scaledBy_ratio, doubled]
      push_cast
      linarith
    · exact .inl (by norm_num)
  unfold ofRatio
  rw [if_neg top, scale, max_eq_left lowest]
  simp only [exact_]
  exact encode_carry finite mantissa more

theorem ofRatio_of_near {x : Binary64} {num den : Nat} (finite : x.isFinite = true)
    (some : x.mantissa ≠ 0) (bottom : den ≠ 0) (near : x.Near (num / den)) :
    ofRatio x.negative num den = x := by
  have top : num ≠ 0 := by
    rintro rfl
    simpa using near.pos some
  obtain ⟨low, high, tie⟩ := near.scaled
  have power : (0 : ℚ) < 2 ^ x.scale := by positivity
  have two : (2 : ℚ) ≠ 0 := by norm_num
  have bound : (x.mantissa : ℚ) ≤ 2 ^ 53 - 1 := by
    have := x.mantissa_lt
    have : x.mantissa + 1 ≤ 2 ^ 53 := by omega
    have : (x.mantissa : ℚ) + 1 ≤ 2 ^ 53 := by exact_mod_cast this
    linarith
  have most : (num : ℚ) / den < 2 ^ (53 + x.scale) := by
    rw [zpow_add₀ two, ← div_lt_iff₀ power]
    have : (2 : ℚ) ^ (53 : Int) = 2 ^ 53 := by norm_num
    rw [this]
    linarith
  by_cases full : (2 : ℚ) ^ (52 + x.scale) ≤ num / den
  · apply round_at_scale finite top bottom near
    rw [fullScale_eq top bottom full most]
    exact max_eq_left x.scale_ge
  · rw [not_le] at full
    by_cases least : x.scale = -1074
    · apply round_at_scale finite top bottom near
      rw [least] at full ⊢
      exact max_eq_right (fullScale_lt top bottom full).le
    · apply round_below_power finite top bottom near _ full
      by_contra few
      apply least
      unfold scale
      split <;> omega

end Stevedore.Binary64
