import BoundSql.Numeric.Reading
import Mathlib.Algebra.Order.Field.Power
import Mathlib.Data.Rat.Cast.Order
import Mathlib.Tactic.FieldSimp
import Mathlib.Tactic.Linarith
import Mathlib.Tactic.NormNum
import Mathlib.Tactic.Positivity
import Mathlib.Tactic.Ring

/-!
# Overflow

A ratio rounds to an infinite number exactly from `2 ^ 1024 - 2 ^ 970` on, half a unit above the
largest finite number. The same bound holds for decimals: those that are taken for infinite or for
zero by their length alone are on the right side of it.
-/

namespace BoundSql.Binary64

/-- The least magnitude that is rounded to an infinite number. -/
def overflow : Nat := (2 ^ 54 - 1) * 2 ^ 970

/-! ### Magnitudes -/

theorem isFinite_ofMagnitude (negative : Bool) (magnitude : Nat) (h : magnitude < 2 ^ 63) :
    (ofMagnitude negative magnitude).isFinite = true ↔ magnitude < 2047 * 2 ^ 52 := by
  have hbits : (ofMagnitude negative magnitude).bits.toNat
      = ((if negative then 2 ^ 63 else 0) + magnitude) % 2 ^ 64 := rfl
  rw [isFinite, exponentField, hbits, decide_eq_true_iff]
  cases negative <;> norm_num at h ⊢ <;> omega

@[simp] theorem isFinite_zero (negative : Bool) : (zero negative).isFinite = true := by
  rw [zero, isFinite_ofMagnitude negative 0 (Nat.two_pow_pos 63)]
  exact Nat.mul_pos (by decide) (Nat.two_pow_pos 52)

@[simp] theorem isFinite_infinity (negative : Bool) : (infinity negative).isFinite = false := by
  have hbound := isFinite_ofMagnitude negative (2047 * 2 ^ 52) (by norm_num)
  rw [← Bool.not_eq_true]
  exact fun h => Nat.lt_irrefl _ (hbound.mp h)

/-! ### Ratios and powers of two -/

/-- Scaling both parts of a ratio divides it by a power of two. -/
theorem ratio_scaled (num den : Nat) (u : Int) :
    ((num * 2 ^ (-u).toNat : Nat) : ℚ) / ((den * 2 ^ u.toNat : Nat) : ℚ)
      = (num / den : ℚ) / 2 ^ u := by
  rcases Int.le_total 0 u with hu | hu
  · obtain ⟨n, rfl⟩ := Int.eq_ofNat_of_zero_le hu
    simp [div_div]
  · obtain ⟨n, hn⟩ := Int.eq_ofNat_of_zero_le (Int.neg_nonneg_of_nonpos hu)
    obtain rfl : u = -n := by omega
    simp [div_mul_eq_mul_div, zpow_neg]

theorem two_zpow_pos (u : Int) : (0 : ℚ) < 2 ^ u := zpow_pos (by norm_num) u

theorem log2_bounds (n : Nat) (hn : n ≠ 0) :
    (2 : ℚ) ^ (n.log2 : Int) ≤ n ∧ (n : ℚ) < 2 ^ ((n.log2 : Int) + 1) := by
  constructor
  · rw [zpow_natCast]
    exact_mod_cast Nat.log2_self_le hn
  · have hlt : (n : ℚ) < ((2 ^ (n.log2 + 1) : Nat) : ℚ) := by exact_mod_cast Nat.lt_log2_self
    rw [← Nat.cast_succ, zpow_natCast]
    exact_mod_cast hlt

theorem floorLog_spec (num den : Nat) (hnum : num ≠ 0) (hden : den ≠ 0) :
    (2 : ℚ) ^ floorLog num den ≤ num / den ∧ (num / den : ℚ) < 2 ^ (floorLog num den + 1) := by
  obtain ⟨hnum₁, hnum₂⟩ := log2_bounds num hnum
  obtain ⟨hden₁, hden₂⟩ := log2_bounds den hden
  have hpos : (0 : ℚ) < den := by exact_mod_cast Nat.pos_of_ne_zero hden
  generalize he : (num.log2 : Int) - den.log2 = e
  have hbelow : (2 : ℚ) ^ (e - 1) ≤ num / den := by
    rw [le_div_iff₀ hpos]
    calc (2 : ℚ) ^ (e - 1) * den ≤ 2 ^ (e - 1) * 2 ^ ((den.log2 : Int) + 1) := by
          gcongr
      _ = 2 ^ (num.log2 : Int) := by
          rw [← zpow_add₀ (by norm_num)]
          congr 1
          omega
      _ ≤ num := hnum₁
  have habove : (num / den : ℚ) < 2 ^ (e + 1) := by
    rw [div_lt_iff₀ hpos]
    calc (num : ℚ) < 2 ^ ((num.log2 : Int) + 1) := hnum₂
      _ = 2 ^ (e + 1) * 2 ^ (den.log2 : Int) := by
          rw [← zpow_add₀ (by norm_num)]
          congr 1
          omega
      _ ≤ 2 ^ (e + 1) * den := by gcongr
  have hscaled := ratio_scaled num den e
  have hdenom : (0 : ℚ) < ((den * 2 ^ e.toNat : Nat) : ℚ) := by
    exact_mod_cast Nat.mul_pos (Nat.pos_of_ne_zero hden) (by positivity)
  have hguess : den * Nat.pow 2 e.toNat ≤ num * Nat.pow 2 (-e).toNat ↔ (2 : ℚ) ^ e ≤ num / den := by
    rw [← one_le_div₀ (two_zpow_pos e), ← hscaled, one_le_div₀ hdenom]
    exact Nat.cast_le.symm
  have hlog : floorLog num den
      = if den * Nat.pow 2 e.toNat ≤ num * Nat.pow 2 (-e).toNat then e else e - 1 := by
    rw [floorLog, he]
  rw [hlog]
  split
  · next h => exact ⟨hguess.mp h, habove⟩
  · next h =>
    rw [Int.sub_add_cancel]
    exact ⟨hbelow, not_le.mp fun hle => h (hguess.mpr hle)⟩

/-! ### Rounding -/

theorem nearest_bounds (num den below above : Nat) (hbelow : below * den ≤ num)
    (habove : num < above * den) : below ≤ nearest num den ∧ nearest num den ≤ above := by
  have hden : 0 < den := by
    rcases Nat.eq_zero_or_pos den with rfl | h
    · omega
    · exact h
  have h₁ : below ≤ num / den := (Nat.le_div_iff_mul_le hden).mpr hbelow
  have h₂ : num / den < above := (Nat.div_lt_iff_lt_mul hden).mpr habove
  simp only [nearest]
  split
  · omega
  · split <;> omega

/-- The nearest integer is below an even one when the ratio is more than a half below it. -/
theorem nearest_lt_iff (num den k : Nat) (hden : 0 < den) :
    nearest num den < 2 * (k + 1) ↔ 2 * num < (4 * k + 3) * den := by
  have hnum := Nat.div_add_mod num den
  have hrest := Nat.mod_lt num hden
  have hodd : (2 * k + 1) % 2 = 1 := by omega
  simp only [nearest]
  generalize num / den = q at *
  generalize num % den = r at *
  have hbound : (4 * k + 3) * den = 4 * (den * k) + 3 * den := by ring
  rw [hbound]
  rcases Nat.lt_trichotomy q (2 * k + 1) with hq | rfl | hq
  · have hle : den * q ≤ den * (2 * k) := Nat.mul_le_mul_left den (by omega)
    have hprod : den * (2 * k) = 2 * (den * k) := by ring
    have hlt : 2 * num < 4 * (den * k) + 3 * den := by omega
    refine iff_of_true ?_ hlt
    split
    · omega
    · split <;> omega
  · have hprod : den * (2 * k + 1) = 2 * (den * k) + den := by ring
    rw [hodd]
    split
    · omega
    · split <;> omega
  · have hle : den * (2 * k + 2) ≤ den * q := Nat.mul_le_mul_left den (by omega)
    have hprod : den * (2 * k + 2) = 2 * (den * k) + 2 * den := by ring
    have hge : ¬ 2 * num < 4 * (den * k) + 3 * den := by omega
    refine iff_of_false ?_ hge
    split
    · omega
    · split <;> omega

theorem nearest_double_lt_iff (num den unit k : Nat) (hden : 0 < den) (hunit : 0 < unit) :
    nearest num (den * (2 * unit)) < 2 * (k + 1) ↔ num < (4 * k + 3) * unit * den := by
  have hbound : (4 * k + 3) * (den * (2 * unit)) = 2 * ((4 * k + 3) * unit * den) := by ring
  rw [nearest_lt_iff num (den * (2 * unit)) k (by positivity), hbound]
  omega

/-! ### The bound -/

theorem overflow_pos : 0 < overflow := by
  unfold overflow
  positivity

theorem cast_overflow : ((overflow : Nat) : ℚ) = 2 ^ (1024 : Int) - 2 ^ (970 : Int) := by
  have hsplit : (2 : ℚ) ^ (1024 : Int) = 2 ^ (54 : Int) * 2 ^ (970 : Int) := by
    rw [← zpow_add₀ (by norm_num)]
    congr 1
  rw [overflow, hsplit, Nat.cast_mul, Nat.cast_sub Nat.one_le_two_pow, sub_mul]
  simp only [Nat.cast_pow, Nat.cast_ofNat, Nat.cast_one, one_mul]
  rfl

theorem lt_overflow_iff (num den : Nat) (hden : den ≠ 0) :
    num < overflow * den ↔ (num / den : ℚ) < 2 ^ (1024 : Int) - 2 ^ (970 : Int) := by
  have hpos : (0 : ℚ) < den := by exact_mod_cast Nat.pos_of_ne_zero hden
  rw [← cast_overflow, div_lt_iff₀ hpos]
  exact_mod_cast Iff.rfl

/-- The integer significand of a ratio before the last rounding, against a bound. -/
theorem scaled_lt_iff (num den k : Nat) (u : Int) (hden : den ≠ 0) :
    num * 2 ^ (-u).toNat < k * (den * 2 ^ u.toNat) ↔ (num / den : ℚ) < k * 2 ^ u := by
  have hpos : (0 : ℚ) < ((den * 2 ^ u.toNat : Nat) : ℚ) := by
    exact_mod_cast Nat.mul_pos (Nat.pos_of_ne_zero hden) (by positivity)
  rw [← div_lt_iff₀ (two_zpow_pos u), ← ratio_scaled, div_lt_iff₀ hpos]
  exact_mod_cast Iff.rfl

theorem two_pow_mul_zpow (k : Nat) (u : Int) : ((2 ^ k : Nat) : ℚ) * 2 ^ u = 2 ^ (k + u) := by
  rw [zpow_add₀ (by norm_num), zpow_natCast, Nat.cast_pow, Nat.cast_ofNat]

theorem two_zpow_le {u v : Int} (h : u ≤ v) : (2 : ℚ) ^ u ≤ 2 ^ v :=
  zpow_le_zpow_right₀ (by norm_num) h

/-- A significand is carried out of its range exactly from the middle above its largest value on. -/
theorem nearest_carry_iff (num den n : Nat) (hden : den ≠ 0) :
    nearest num (den * 2 ^ (n + 1)) < 2 ^ 53 ↔ num < (2 ^ 54 - 1) * 2 ^ n * den := by
  have hunit : 0 < 2 ^ n := Nat.two_pow_pos n
  rw [pow_succ' 2 n]
  generalize 2 ^ n = unit at *
  obtain ⟨k, hk⟩ : ∃ k, k + 1 = 2 ^ 52 := ⟨4503599627370495, by norm_num⟩
  have hcarry := nearest_double_lt_iff num den unit k (Nat.pos_of_ne_zero hden) hunit
  have hfactor : 4 * k + 3 = 2 ^ 54 - 1 := by omega
  rw [hfactor] at hcarry
  omega

theorem isFinite_of_magnitude (negative : Bool) (magnitude : Nat) :
    (if magnitude < 2047 * 2 ^ 52 then ofMagnitude negative magnitude
      else infinity negative).isFinite = true ↔ magnitude < 2047 * 2 ^ 52 := by
  split
  · next h =>
    have hsmall : magnitude < 2 ^ 63 := by omega
    exact isFinite_ofMagnitude negative magnitude hsmall
  · next h => exact iff_of_false (by simp) h

/-- A ratio rounds to a finite number exactly below the bound. -/
theorem isFinite_roundRatio (negative : Bool) (num den : Nat) (hden : den ≠ 0) :
    (roundRatio negative num den).isFinite = true ↔ num < overflow * den := by
  by_cases hnum : num = 0
  · rw [roundRatio, if_pos (Or.inl hnum), hnum]
    exact iff_of_true (isFinite_zero negative)
      (Nat.mul_pos overflow_pos (Nat.pos_of_ne_zero hden))
  · obtain ⟨hbelow, habove⟩ := floorLog_spec num den hnum hden
    rw [roundRatio, if_neg (not_or.mpr ⟨hnum, hden⟩)]
    generalize floorLog num den = e at *
    generalize hu : max (e - 52) (-1074) = u
    simp only [Nat.pow_eq]
    rw [isFinite_of_magnitude]
    have hlt : num * 2 ^ (-u).toNat < 2 ^ 53 * (den * 2 ^ u.toNat) := by
      rw [scaled_lt_iff num den _ u hden, two_pow_mul_zpow]
      exact habove.trans_le (two_zpow_le (by omega))
    rcases Int.lt_trichotomy e 1023 with he | rfl | he
    · -- Below the last binade a carry does no harm.
      obtain ⟨_, hm⟩ := nearest_bounds _ _ 0 (2 ^ 53) (by omega) hlt
      refine iff_of_true (by omega) ((lt_overflow_iff num den hden).mpr ?_)
      have hdouble : (2 : ℚ) ^ (1024 : Int) = 2 ^ (1023 : Int) + 2 ^ (1023 : Int) :=
        (zpow_one_add₀ (by norm_num) 1023).trans (two_mul _)
      calc (num / den : ℚ) < 2 ^ (e + 1) := habove
        _ ≤ 2 ^ (1023 : Int) := two_zpow_le (by omega)
        _ ≤ 2 ^ (1024 : Int) - 2 ^ (970 : Int) := by
          rw [hdouble, le_sub_iff_add_le]
          exact add_le_add_right (two_zpow_le (by omega)) _
    · -- In the last binade it is a carry that makes the number infinite.
      obtain rfl : u = 971 := by omega
      have hnum : num * 2 ^ (-971 : Int).toNat = num := Nat.mul_one num
      have hexponent : (971 : Int).toNat = 970 + 1 := rfl
      have hrange : ∀ m : Nat, ((971 : Int) + 1074).toNat * 2 ^ 52 + m < 2047 * 2 ^ 52 ↔
          m < 2 ^ 53 := by omega
      rw [hnum, hexponent, hrange, overflow]
      generalize 970 = n
      exact nearest_carry_iff num den n hden
    · -- Beyond it every significand is too large.
      have hge : 2 ^ 52 * (den * 2 ^ u.toNat) ≤ num * 2 ^ (-u).toNat := by
        rw [← not_lt, scaled_lt_iff num den _ u hden, two_pow_mul_zpow, not_lt]
        exact (two_zpow_le (by omega)).trans hbelow
      obtain ⟨hm, _⟩ := nearest_bounds _ _ (2 ^ 52) (2 ^ 53) hge hlt
      refine iff_of_false (by omega) ?_
      rw [lt_overflow_iff num den hden, not_lt]
      calc (2 : ℚ) ^ (1024 : Int) - 2 ^ (970 : Int) ≤ 2 ^ (1024 : Int) :=
            sub_le_self _ (two_zpow_pos 970).le
        _ ≤ 2 ^ e := two_zpow_le (by omega)
        _ ≤ num / den := hbelow

/-! ### Decimals -/

theorem toDigits_bounds (n : Nat) (hn : n ≠ 0) :
    10 ^ ((Nat.toDigits 10 n).length - 1) ≤ n ∧ n < 10 ^ (Nat.toDigits 10 n).length := by
  have hlength : 0 < (Nat.toDigits 10 n).length := Nat.length_toDigits_pos
  refine ⟨?_, (Nat.length_toDigits_le_iff (by decide) hlength).mp le_rfl⟩
  rcases Nat.eq_or_lt_of_le hlength with hone | hmore
  · rw [← hone]
    exact Nat.one_le_iff_ne_zero.mpr hn
  · rw [← not_lt, ← Nat.length_toDigits_le_iff (by decide) (by omega)]
    omega

theorem overflow_le : overflow ≤ 10 ^ 310 := by decide +kernel

/-- A decimal is read as a finite number exactly below the bound. -/
theorem isFinite_ofDecimal (negative : Bool) (digits : Nat) (exponent : Int) :
    (ofDecimal negative digits exponent).isFinite = true ↔
      digits * 10 ^ exponent.toNat < overflow * 10 ^ (-exponent).toNat := by
  have hden : 10 ^ (-exponent).toNat ≠ 0 := pow_ne_zero _ (by decide)
  by_cases hzero : digits = 0
  · rw [ofDecimal, if_pos (Or.inl hzero), hzero]
    refine iff_of_true (isFinite_zero negative) ?_
    rw [Nat.zero_mul]
    exact Nat.mul_pos overflow_pos (Nat.pos_of_ne_zero hden)
  obtain ⟨hleast, hmost⟩ := toDigits_bounds digits hzero
  have hlength : 0 < (Nat.toDigits 10 digits).length := Nat.length_toDigits_pos
  rw [ofDecimal]
  generalize (Nat.toDigits 10 digits).length = length at *
  by_cases hsmall : exponent + length < -330
  · rw [if_pos (Or.inr hsmall)]
    refine iff_of_true (isFinite_zero negative) ?_
    have hexponent : exponent.toNat = 0 := by omega
    rw [hexponent, pow_zero, Nat.mul_one]
    calc digits < 10 ^ length := hmost
      _ ≤ 10 ^ (-exponent).toNat := Nat.pow_le_pow_right (by decide) (by omega)
      _ ≤ overflow * 10 ^ (-exponent).toNat := Nat.le_mul_of_pos_left _ overflow_pos
  rw [if_neg (not_or.mpr ⟨hzero, hsmall⟩)]
  by_cases hlarge : 310 < exponent + length
  · rw [if_pos hlarge]
    refine iff_of_false (by simp) (not_lt.mpr ?_)
    calc overflow * 10 ^ (-exponent).toNat ≤ 10 ^ 310 * 10 ^ (-exponent).toNat :=
          Nat.mul_le_mul_right _ overflow_le
      _ = 10 ^ (310 + (-exponent).toNat) := (pow_add ..).symm
      _ ≤ 10 ^ (length - 1 + exponent.toNat) := Nat.pow_le_pow_right (by decide) (by omega)
      _ = 10 ^ (length - 1) * 10 ^ exponent.toNat := pow_add ..
      _ ≤ digits * 10 ^ exponent.toNat := Nat.mul_le_mul_right _ hleast
  · rw [if_neg hlarge]
    exact isFinite_roundRatio negative _ _ hden

end BoundSql.Binary64
