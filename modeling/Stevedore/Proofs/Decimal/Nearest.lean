import Stevedore.Decimal.Reading
import Stevedore.Proofs.Decimal.Shortest

/-! A decimal near a binary number is read as that number. -/
namespace Stevedore.Decimal
open Binary64

theorem near_lt {x : Binary64} {ratio : ℚ} (finite : x.isFinite = true) (near : x.Near ratio) :
    ratio < 10 ^ (310 : Int) := by
  have power : (0 : ℚ) < 2 ^ x.scale := by positivity
  have ten : (2 : ℚ) ^ (1024 : Int) < 10 ^ (310 : Int) := by
    have : 2 ^ 1024 < 10 ^ 310 := by decide +kernel
    exact_mod_cast this
  calc ratio ≤ (x.mantissa + 1 / 2) * 2 ^ x.scale := near.2.1
    _ ≤ (x.mantissa + 1) * 2 ^ x.scale := mul_le_mul_of_nonneg_right (by linarith) power.le
    _ ≤ 2 ^ (1024 : Int) := next_le finite
    _ < 10 ^ (310 : Int) := ten

theorem size_le {digits : Nat} {exponent : Int} (nonzero : digits ≠ 0) (low : -400 ≤ exponent)
    (small : (digits : ℚ) * 10 ^ exponent < 10 ^ (310 : Int)) :
    (Nat.log2 digits : Int) * 30103 / 100000 + exponent ≤ 400 := by
  by_contra large
  have one : (1 : ℚ) < 10 := by norm_num
  have ten : (10 : ℚ) ≠ 0 := by norm_num
  have least : (1 : ℚ) ≤ digits := by exact_mod_cast Nat.one_le_iff_ne_zero.mpr nonzero
  have positive : (0 : ℚ) < 10 ^ exponent := by positivity
  have exponentSmall : exponent < 310 := by
    apply (zpow_lt_zpow_iff_right₀ one).mp
    exact lt_of_le_of_lt (le_mul_of_one_le_left positive.le least) small
  obtain ⟨n, same⟩ := Int.eq_ofNat_of_zero_le (show 0 ≤ 400 - exponent by omega)
  have powers : ∀ n < 801, 10 ^ n ≤ 2 ^ ((n + 1) * 100000 / 30103) := by decide +kernel
  have bits : (n + 1) * 100000 / 30103 ≤ Nat.log2 digits := by omega
  have many : 10 ^ n ≤ digits := calc
    10 ^ n ≤ 2 ^ ((n + 1) * 100000 / 30103) := powers n (by omega)
    _ ≤ 2 ^ Nat.log2 digits := Nat.pow_le_pow_right (by norm_num) bits
    _ ≤ digits := Nat.log2_self_le nonzero
  have manyRat : (10 : ℚ) ^ (n : Int) ≤ digits := by
    rw [zpow_natCast]
    exact_mod_cast many
  have product : (10 : ℚ) ^ (400 : Int) ≤ digits * 10 ^ exponent := calc
    (10 : ℚ) ^ (400 : Int) = 10 ^ (n : Int) * 10 ^ exponent := by
      rw [← zpow_add₀ ten]
      congr 1
      omega
    _ ≤ digits * 10 ^ exponent := mul_le_mul_of_nonneg_right manyRat positive.le
  have := (zpow_lt_zpow_iff_right₀ one).mp (lt_of_le_of_lt product small)
  omega

theorem nearest_of_near {x : Binary64} {s : Scaled} (finite : x.isFinite = true)
    (nonzero : x.isZero = false) (near : x.Near s.value) (low : -400 ≤ s.exponent) :
    nearest x.negative s.digits s.exponent = x := by
  have some := mantissa_ne_zero nonzero
  have digits : s.digits ≠ 0 := by
    intro zero
    have := near.pos some
    simp [Scaled.value, zero] at this
  have size := size_le digits low (near_lt finite near)
  unfold nearest
  dsimp only
  rw [if_neg (by omega), if_neg (by omega)]
  split
  · rename_i up
    apply ofRatio_of_near finite some (by norm_num)
    obtain ⟨k, same⟩ := Int.eq_ofNat_of_zero_le up
    rw [Scaled.value, same, zpow_natCast] at near
    simpa [same] using near
  · rename_i down
    apply ofRatio_of_near finite some (by positivity)
    obtain ⟨k, same⟩ := Int.eq_ofNat_of_zero_le (show 0 ≤ -s.exponent by omega)
    rw [Scaled.value, show s.exponent = -(k : Int) by omega, zpow_neg, zpow_natCast,
      ← div_eq_mul_inv] at near
    rw [same, Int.toNat_natCast]
    exact_mod_cast near

theorem nearest_zero {x : Binary64} (zero : x.isZero = true) (exponent : Int) :
    nearest x.negative 0 exponent = x := by
  have bits := x.bits_split
  simp only [isZero, Bool.and_eq_true, beq_iff_eq] at zero
  rw [zero.1, zero.2, Nat.zero_mul, Nat.add_zero] at bits
  unfold nearest ofRatio
  rw [if_pos (.inl rfl), if_pos rfl, ← bits, UInt64.ofNat_toNat]

end Stevedore.Decimal
