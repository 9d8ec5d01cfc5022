import Mathlib.Algebra.Order.Field.Power
import Mathlib.Data.Rat.Floor
import Mathlib.Tactic.FieldSimp
import Mathlib.Tactic.Linarith
import Mathlib.Tactic.NormNum
import Mathlib.Tactic.Ring
import Quicklook.Binary.Nearest

/-!
# The error of rounded arithmetic

A number with 53 significant bits is off by at most one part in `2 ^ 53`. So a pixel count that is
scaled by a rounded quotient, in a product that is rounded again, is off by far less than half a
pixel, and a bound that holds for the exact value holds for the whole pixels.

* `zpow_binade_bounds`: the binade of a number
* `abs_nearest_sub_le`: the error of one rounding
* `abs_product_sub_le`: the error of a quotient and a product
* `scale_le`, `scale_eq`: whole bounds and whole values survive both roundings
* `scale_mul_lt`: by how much the whole pixels may exceed the exact value
* `scale_eq_round`, `scale_of_half`: what the errors leave of rounding to the nearest pixel
-/

namespace Quicklook.Binary

/-! ## §1 Rounding to whole numbers -/

/-- Rounding to the nearest whole number moves by half of one at most. -/
theorem abs_roundEven_sub_le (x : ℚ) : |(roundEven x : ℚ) - x| ≤ 1 / 2 := by
  have hlow : (x.floor : ℚ) ≤ x := Int.floor_le x
  have hhigh : x < x.floor + 1 := Int.lt_floor_add_one x
  rw [abs_le]
  simp only [roundEven]
  -- Below the half, above it, and at it one of both neighbours.
  split
  · constructor <;> linarith
  · split
    · push_cast
      constructor <;> linarith
    · split
      · constructor <;> linarith
      · push_cast
        constructor <;> linarith

/-- What is less than half a pixel above a whole number is not rounded beyond it. -/
theorem roundHalfUp_le {x : ℚ} {n : ℕ} (h : x < n + 1 / 2) : roundHalfUp x ≤ n := by
  have hfloor : ⌊x + 1 / 2⌋ < (n : ℤ) + 1 := by
    rw [Int.floor_lt]
    push_cast
    linarith
  have hround : roundHalfUp x = ⌊x + 1 / 2⌋.toNat := rfl
  omega

theorem le_roundHalfUp {x : ℚ} {n : ℕ} (h : n - 1 / 2 ≤ x) : n ≤ roundHalfUp x := by
  have hfloor : (n : ℤ) ≤ ⌊x + 1 / 2⌋ := by
    rw [Int.le_floor]
    push_cast
    linarith
  have hround : roundHalfUp x = ⌊x + 1 / 2⌋.toNat := rfl
  omega

theorem cast_roundHalfUp_le {x : ℚ} (hx : 0 ≤ x) : (roundHalfUp x : ℚ) ≤ x + 1 / 2 := by
  have hfloor : 0 ≤ ⌊x + 1 / 2⌋ := Int.floor_nonneg.2 (by positivity)
  have hround : (roundHalfUp x : ℤ) = ⌊x + 1 / 2⌋ := Int.toNat_of_nonneg hfloor
  calc (roundHalfUp x : ℚ) = ⌊x + 1 / 2⌋ := by exact_mod_cast hround
    _ ≤ x + 1 / 2 := Int.floor_le _

/-! ## §2 Rounding to 53 significant bits -/

private theorem zpow_log2_le {n : ℕ} (h : n ≠ 0) : (2 : ℚ) ^ (n.log2 : ℤ) ≤ n := by
  rw [zpow_natCast]
  exact_mod_cast Nat.log2_self_le h

private theorem lt_zpow_log2 (n : ℕ) : (n : ℚ) < 2 ^ ((n.log2 : ℤ) + 1) := by
  have h : ((n.log2 : ℤ) + 1) = ((n.log2 + 1 : ℕ) : ℤ) := by push_cast; rfl
  rw [h, zpow_natCast]
  exact_mod_cast Nat.lt_log2_self

/-- The quotient of the leading powers is right, or one too large. -/
private theorem zpow_log2_bounds {x : ℚ} (hx : 0 < x) :
    (2 : ℚ) ^ ((x.num.toNat.log2 : ℤ) - x.den.log2 - 1) ≤ x ∧
      x < 2 ^ ((x.num.toNat.log2 : ℤ) - x.den.log2 + 1) := by
  have hnum : 0 < x.num := Rat.num_pos.2 hx
  have hden : (0 : ℚ) < x.den := by exact_mod_cast x.den_pos
  have hproduct : x * x.den = (x.num.toNat : ℚ) := by
    have hcast : ((x.num.toNat : ℕ) : ℚ) = x.num := by
      exact_mod_cast Int.toNat_of_nonneg hnum.le
    rw [hcast]
    exact Rat.mul_den_eq_num x
  have hnumLow := zpow_log2_le (show x.num.toNat ≠ 0 by omega)
  have hnumHigh := lt_zpow_log2 x.num.toNat
  have hdenLow := zpow_log2_le x.den_nz
  have hdenHigh := lt_zpow_log2 x.den
  generalize (x.num.toNat.log2 : ℤ) = i at *
  generalize (x.den.log2 : ℤ) = j at *
  have htwo : (2 : ℚ) ≠ 0 := by norm_num
  constructor
  · refine le_of_mul_le_mul_right ?_ hden
    -- The numerator is at least its leading power, the denominator less than twice its own.
    calc (2 : ℚ) ^ (i - j - 1) * x.den ≤ 2 ^ (i - j - 1) * 2 ^ (j + 1) := by gcongr
      _ = 2 ^ i := by
          rw [← zpow_add₀ htwo]
          congr 1
          ring
      _ ≤ x * x.den := hproduct ▸ hnumLow
  · refine lt_of_mul_lt_mul_right ?_ hden.le
    calc x * x.den < 2 ^ (i + 1) := hproduct ▸ hnumHigh
      _ = 2 ^ (i - j + 1) * 2 ^ j := by
          rw [← zpow_add₀ htwo]
          congr 1
          ring
      _ ≤ 2 ^ (i - j + 1) * x.den := by gcongr

/-- The binade of a number is between the power of two below it and the next one. -/
theorem zpow_binade_bounds {x : ℚ} (hx : 0 < x) :
    (2 : ℚ) ^ binade x ≤ x ∧ x < (2 : ℚ) ^ (binade x + 1) := by
  obtain ⟨hlow, hhigh⟩ := zpow_log2_bounds hx
  simp only [binade]
  split
  case isTrue h => exact ⟨h, hhigh⟩
  case isFalse h =>
    -- The guess was one too large, so it is itself the upper bound.
    refine ⟨hlow, ?_⟩
    rw [sub_add_cancel]
    exact not_le.1 h

theorem ulp_pos (x : ℚ) : 0 < ulp x :=
  zpow_pos (by norm_num) _

/-- The distance of neighbouring numbers is at most one part in `2 ^ 52`. -/
theorem ulp_le {x : ℚ} (hx : 0 < x) : ulp x ≤ x / 2 ^ 52 := by
  have hsplit : ulp x = (2 : ℚ) ^ binade x / 2 ^ 52 :=
    zpow_sub₀ (by norm_num) (binade x) 52
  rw [hsplit]
  gcongr
  exact (zpow_binade_bounds hx).1

/-- One rounding is off by at most one part in `2 ^ 53`. -/
theorem abs_nearest_sub_le {x : ℚ} (hx : 0 ≤ x) : |nearest x - x| ≤ x / 2 ^ 53 := by
  rcases hx.eq_or_lt with rfl | hpos
  · simp [nearest]
  · have hulp := ulp_pos x
    -- In units of the last place it is a rounding to a whole number.
    have hfactor : nearest x - x = (roundEven (x / ulp x) - x / ulp x) * ulp x := by
      rw [nearest, if_neg hpos.not_ge, sub_mul, div_mul_cancel₀ x hulp.ne']
    calc |nearest x - x| = |(roundEven (x / ulp x) : ℚ) - x / ulp x| * ulp x := by
          rw [hfactor, abs_mul, abs_of_pos hulp]
      _ ≤ 1 / 2 * (x / 2 ^ 52) := by
          gcongr
          · exact abs_roundEven_sub_le _
          · exact ulp_le hpos
      _ = x / 2 ^ 53 := by ring

theorem nearest_nonneg (x : ℚ) : 0 ≤ nearest x := by
  rcases le_or_gt x 0 with hx | hx
  · rw [nearest, if_pos hx]
  · have h := (abs_le.1 (abs_nearest_sub_le hx.le)).1
    have hsmall : x / 2 ^ 53 ≤ x := div_le_self hx.le (by norm_num)
    linarith

/-! ## §3 Scaled pixel counts -/

/-- A pixel count times a rounded quotient, rounded again, has the errors of both roundings. -/
theorem abs_product_sub_le_add (n a b : ℕ) :
    |nearest (n * ratio a b) - n * a / b| ≤
      (n * a / b : ℚ) / 2 ^ 52 + (n * a / b : ℚ) / 2 ^ 106 := by
  set x : ℚ := n * a / b with hx
  have hx0 : 0 ≤ x := by positivity
  have hratio : |n * ratio a b - x| ≤ x / 2 ^ 53 := by
    have hquot : (0 : ℚ) ≤ a / b := by positivity
    calc |n * ratio a b - x| = n * |nearest (a / b) - a / b| := by
          rw [hx, ratio, mul_div_assoc, ← mul_sub, abs_mul, Nat.abs_cast]
      _ ≤ n * ((a / b : ℚ) / 2 ^ 53) := by
          gcongr
          exact abs_nearest_sub_le hquot
      _ = x / 2 ^ 53 := by
          rw [hx]
          ring
  have hproduct0 : (0 : ℚ) ≤ n * ratio a b := mul_nonneg (Nat.cast_nonneg n) (nearest_nonneg _)
  have hproduct := abs_nearest_sub_le hproduct0
  rw [abs_le] at *
  constructor <;> linarith

/-- Both errors together are at most one part in `2 ^ 51`. -/
theorem abs_product_sub_le (n a b : ℕ) :
    |nearest (n * ratio a b) - n * a / b| ≤ (n * a / b : ℚ) / 2 ^ 51 := by
  have hx : (0 : ℚ) ≤ n * a / b := by positivity
  have herror := abs_product_sub_le_add n a b
  linarith

variable {n a b m : ℕ}

/-- Both errors together are far from the half pixel that would be rounded up. -/
theorem product_lt_add_half (hb : 0 < b) (hm : m ≤ 2 ^ 32) (h : n * a ≤ m * b) :
    nearest (n * ratio a b) < n * a / b + 1 / 2 := by
  have hb' : (0 : ℚ) < b := by exact_mod_cast hb
  have hexact : (n * a / b : ℚ) ≤ m := by
    rw [div_le_iff₀ hb']
    exact_mod_cast h
  have hm' : (m : ℚ) ≤ 2 ^ 32 := by exact_mod_cast hm
  have herror := (abs_le.1 (abs_product_sub_le n a b)).2
  have hsmall : (n * a / b : ℚ) / 2 ^ 51 ≤ 2 ^ 32 / 2 ^ 51 := by
    gcongr
    exact hexact.trans hm'
  have hhalf : (2 : ℚ) ^ 32 / 2 ^ 51 < 1 / 2 := by norm_num
  linarith

/-- A whole bound on the exact value bounds the whole pixels. -/
theorem scale_le (hb : 0 < b) (hm : m ≤ 2 ^ 32) (h : n * a ≤ m * b) :
    scale n (ratio a b) ≤ m := by
  have hb' : (0 : ℚ) < b := by exact_mod_cast hb
  have hexact : (n * a / b : ℚ) ≤ m := by
    rw [div_le_iff₀ hb']
    exact_mod_cast h
  exact roundHalfUp_le ((product_lt_add_half hb hm h).trans_le (by linarith))

/-- The whole pixels exceed the exact value by less than one. -/
theorem scale_mul_lt (hb : 0 < b) (hm : m ≤ 2 ^ 32) (h : n * a ≤ m * b) :
    scale n (ratio a b) * b < n * a + b := by
  have hb' : (0 : ℚ) < b := by exact_mod_cast hb
  have hround := cast_roundHalfUp_le (nearest_nonneg (n * ratio a b))
  have hproduct := product_lt_add_half hb hm h
  have hscale : (scale n (ratio a b) : ℚ) < n * a / b + 1 :=
    calc (scale n (ratio a b) : ℚ) ≤ nearest (n * ratio a b) + 1 / 2 := hround
      _ < n * a / b + 1 := by linarith
  have hmul : (scale n (ratio a b) * b : ℚ) < n * a + b :=
    calc (scale n (ratio a b) * b : ℚ) < (n * a / b + 1) * b := by gcongr
      _ = n * a + b := by field_simp
  exact_mod_cast hmul

/-- A whole exact value is met. -/
theorem scale_eq (hb : 0 < b) (hm : m ≤ 2 ^ 32) (h : n * a = m * b) :
    scale n (ratio a b) = m := by
  have hb' : (0 : ℚ) < b := by exact_mod_cast hb
  have hexact : (n * a / b : ℚ) = m := by
    rw [div_eq_iff hb'.ne']
    exact_mod_cast h
  have hm' : (m : ℚ) ≤ 2 ^ 32 := by exact_mod_cast hm
  have herror := (abs_le.1 (abs_product_sub_le n a b)).1
  rw [hexact] at herror
  refine le_antisymm (scale_le hb hm h.le) (le_roundHalfUp ?_)
  have hsmall : (m : ℚ) / 2 ^ 51 ≤ 2 ^ 32 / 2 ^ 51 := by
    gcongr
  have hhalf : (2 : ℚ) ^ 32 / 2 ^ 51 < 1 / 2 := by norm_num
  linarith

/-! ## §4 Correct rounding

An exact value is a whole number of parts in `b`. Where it is not halfway between whole pixels, it
is at least half such a part away from there, and the errors are less than that. -/

/-- Both errors together are less than half a part in `b`. -/
theorem abs_product_sub_lt (hb : 0 < b) (hpos : 0 < n * a) (hle : n * a ≤ 2 ^ 50) :
    |nearest (n * ratio a b) - n * a / b| < 1 / (2 * b) := by
  have hb' : (0 : ℚ) < b := by exact_mod_cast hb
  have hpos' : (0 : ℚ) < n * a := by exact_mod_cast hpos
  have hle' : (n * a : ℚ) ≤ 2 ^ 50 := by exact_mod_cast hle
  have hx : (0 : ℚ) < n * a / b := by positivity
  calc |nearest (n * ratio a b) - n * a / b|
      ≤ (n * a / b : ℚ) / 2 ^ 52 + (n * a / b : ℚ) / 2 ^ 106 := abs_product_sub_le_add n a b
    _ < (n * a / b : ℚ) / 2 ^ 51 := by linarith
    _ ≤ (2 ^ 50 / b : ℚ) / 2 ^ 51 := by gcongr
    _ = 1 / (2 * b) := by field_simp

/-- An exact value that is above a half is so by at least half a part in `b`. -/
theorem half_le_sub {j : ℤ} (hb : 0 < b) (h : j * b < 2 * (n * a)) :
    (j / 2 : ℚ) ≤ n * a / b - 1 / (2 * b) := by
  have hb' : (0 : ℚ) < b := by exact_mod_cast hb
  have h' : (j * b : ℚ) + 1 ≤ 2 * (n * a) := by exact_mod_cast h
  have hsub : (n * a / b - 1 / (2 * b) : ℚ) = (2 * (n * a) - 1) / (2 * b) := by field_simp
  rw [hsub, div_le_div_iff₀ two_pos (by positivity)]
  linarith

/-- An exact value that is below a half is so by at least half a part in `b`. -/
theorem add_le_half {j : ℤ} (hb : 0 < b) (h : 2 * (n * a) < j * b) :
    (n * a / b + 1 / (2 * b) : ℚ) ≤ j / 2 := by
  have hb' : (0 : ℚ) < b := by exact_mod_cast hb
  have h' : (2 * (n * a) : ℚ) + 1 ≤ j * b := by exact_mod_cast h
  have hadd : (n * a / b + 1 / (2 * b) : ℚ) = (2 * (n * a) + 1) / (2 * b) := by field_simp
  rw [hadd, div_le_div_iff₀ (by positivity) two_pos]
  linarith

/-- The exact value lies within half a pixel of the one that it is rounded to. -/
theorem bounds_of_round_eq (hb : 0 < b) (h : round (n * a / b : ℚ) = m) :
    ((2 * m - 1) * b : ℤ) ≤ 2 * (n * a) ∧ (2 * (n * a) : ℤ) < (2 * m + 1) * b := by
  have hb' : (0 : ℚ) < b := by exact_mod_cast hb
  obtain ⟨hlow, hhigh⟩ := round_eq_iff.1 h
  rw [Int.cast_natCast, le_div_iff₀ hb'] at hlow
  rw [Int.cast_natCast, div_lt_iff₀ hb'] at hhigh
  have hlow' : ((2 * m - 1) * b : ℚ) ≤ 2 * (n * a) := by linarith
  have hhigh' : (2 * (n * a) : ℚ) < (2 * m + 1) * b := by linarith
  exact ⟨by exact_mod_cast hlow', by exact_mod_cast hhigh'⟩

/-- What is not halfway between whole pixels is rounded correctly. -/
theorem scale_eq_round (hb : 0 < b) (hpos : 0 < n * a) (hle : n * a ≤ 2 ^ 50)
    (hhalf : ∀ k : ℕ, 2 * (n * a) ≠ (2 * k + 1) * b) :
    (scale n (ratio a b) : ℤ) = round (n * a / b : ℚ) := by
  obtain ⟨herrorLow, herrorHigh⟩ := abs_lt.1 (abs_product_sub_lt hb hpos hle)
  obtain ⟨m, hm⟩ : ∃ m : ℕ, round (n * a / b : ℚ) = m := by
    refine Int.eq_ofNat_of_zero_le ?_
    rw [round_eq]
    positivity
  obtain ⟨hlow, hhigh⟩ := bounds_of_round_eq hb hm
  -- The lower bound is itself a half, which was excluded; zero is not reached from above.
  have hne : ((2 * m - 1) * b : ℤ) ≠ 2 * (n * a) := by
    cases m with
    | zero =>
      have hpos' : (0 : ℤ) < n * a := by exact_mod_cast hpos
      push_cast
      omega
    | succ k =>
      intro heq
      push_cast at heq
      have heq' : (2 * (n * a) : ℤ) = (2 * k + 1) * b := by linarith
      exact hhalf k (by exact_mod_cast heq')
  have hfarLow := half_le_sub hb (lt_of_le_of_ne hlow hne)
  have hfarHigh := add_le_half hb hhigh
  push_cast at hfarLow hfarHigh
  rw [hm]
  refine congrArg Nat.cast (le_antisymm (roundHalfUp_le ?_) (le_roundHalfUp ?_))
  · linarith
  · linarith

/-- What is halfway between whole pixels is rounded to one of both. -/
theorem scale_of_half {k : ℕ} (hb : 0 < b) (hpos : 0 < n * a) (hle : n * a ≤ 2 ^ 50)
    (hhalf : 2 * (n * a) = (2 * k + 1) * b) :
    scale n (ratio a b) = k ∨ scale n (ratio a b) = k + 1 := by
  have hb' : (1 : ℚ) ≤ b := by exact_mod_cast hb
  have hexact : (n * a / b : ℚ) = k + 1 / 2 := by
    rw [div_eq_iff (by positivity)]
    have hhalf' : (2 * (n * a) : ℚ) = (2 * k + 1) * b := by exact_mod_cast hhalf
    linarith
  have hpart : (1 / (2 * b) : ℚ) ≤ 1 / 2 := by
    rw [div_le_div_iff₀ (by positivity) two_pos]
    linarith
  obtain ⟨herrorLow, herrorHigh⟩ := abs_lt.1 (abs_product_sub_lt hb hpos hle)
  rw [hexact] at herrorLow herrorHigh
  -- The error is less than half a pixel, so neither neighbour is left.
  have hlow : k ≤ scale n (ratio a b) := le_roundHalfUp (by linarith)
  have hhigh : scale n (ratio a b) ≤ k + 1 := roundHalfUp_le (by push_cast; linarith)
  omega

/-- Either way the whole pixels are off by at most half a pixel. -/
theorem abs_scale_sub_le (hb : 0 < b) (hpos : 0 < n * a) (hle : n * a ≤ 2 ^ 50) :
    2 * |(scale n (ratio a b) * b - n * a : ℤ)| ≤ b := by
  rw [← abs_two, ← abs_mul, abs_le]
  -- Halfway it is one of two neighbours, and otherwise the nearest one.
  by_cases hhalf : ∃ k : ℕ, 2 * (n * a) = (2 * k + 1) * b
  · obtain ⟨k, hk⟩ := hhalf
    have hk' : (2 * (n * a) : ℤ) = (2 * k + 1) * b := by exact_mod_cast hk
    rcases scale_of_half hb hpos hle hk with hscale | hscale <;>
      · rw [hscale]
        push_cast
        constructor <;> linarith
  · have hscale := scale_eq_round hb hpos hle (not_exists.1 hhalf)
    obtain ⟨hlow, hhigh⟩ := bounds_of_round_eq hb hscale.symm
    constructor <;> linarith

end Quicklook.Binary
