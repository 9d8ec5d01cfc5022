import Mathlib
import Quicklook.Proofs.Binary.Exact
import Quicklook.Proofs.Binary.Rounding

/-!
# The order of rounded numbers

Rounding never reverses an order: a larger number never comes out smaller, whether it is rounded
to 53 significant bits or to whole pixels. So no step from an edge of a source to an edge of its
overview reverses one.

* `nearest_mono`: rounding to 53 significant bits, within a binade and across binades
* `ratio_mono`, `scale_mono`, `scale_max`: scaled pixel counts
* `canonical_unpack`: the mantissas of double-precision numbers
* `le_cases`: double-precision numbers are in the order of their values
* `toNat_toUInt32_mono`: their whole pixels are too, those of the infinities included
-/

namespace Quicklook.Binary

open Float.Model (UnpackedFloat Format)
open Float.Model.UnpackedFloat (Sign)

/-! ## §1 Rounding to whole numbers -/

theorem floor_le_roundEven (x : ℚ) : ⌊x⌋ ≤ roundEven x := by
  have hfloor : x.floor = ⌊x⌋ := rfl
  simp only [roundEven]
  split_ifs <;> omega

theorem roundEven_le_floor_add_one (x : ℚ) : roundEven x ≤ ⌊x⌋ + 1 := by
  have hfloor : x.floor = ⌊x⌋ := rfl
  simp only [roundEven]
  split_ifs <;> omega

/-- Rounding to even reverses no order. -/
theorem roundEven_mono {x y : ℚ} (h : x ≤ y) : roundEven x ≤ roundEven y := by
  -- Either both lie between the same whole numbers, or there is a whole number between them.
  rcases (Int.floor_le_floor h).eq_or_lt with heq | hlt
  · -- Between the same whole numbers the larger rest decides for the larger one.
    have hfloor : x.floor = y.floor := heq
    simp only [roundEven, hfloor]
    split_ifs <;> first | omega | linarith
  · calc roundEven x ≤ ⌊x⌋ + 1 := roundEven_le_floor_add_one x
      _ ≤ ⌊y⌋ := hlt
      _ ≤ roundEven y := floor_le_roundEven y

theorem roundHalfUp_mono {x y : ℚ} (h : x ≤ y) : roundHalfUp x ≤ roundHalfUp y := by
  have hfloor : ⌊x + 1 / 2⌋ ≤ ⌊y + 1 / 2⌋ := Int.floor_le_floor (by linarith)
  exact Int.toNat_le_toNat hfloor

/-! ## §2 Rounding to 53 significant bits -/

private theorem one_lt_two_rat : (1 : ℚ) < 2 := by norm_num

/-- A larger number lies in no lower binade. -/
theorem binade_mono {x y : ℚ} (hx : 0 < x) (h : x ≤ y) : binade x ≤ binade y := by
  have hpow : (2 : ℚ) ^ binade x < 2 ^ (binade y + 1) :=
    ((zpow_binade_bounds hx).1.trans h).trans_lt (zpow_binade_bounds (hx.trans_le h)).2
  have hlt := (zpow_lt_zpow_iff_right₀ one_lt_two_rat).1 hpow
  omega

/-- A binade begins at 2 ^ 52 times the distance of its numbers. -/
theorem pow_mul_ulp (x : ℚ) : 2 ^ 52 * ulp x = (2 : ℚ) ^ binade x := by
  have hsplit : ulp x = (2 : ℚ) ^ binade x / 2 ^ 52 := zpow_sub₀ two_ne_zero (binade x) 52
  rw [hsplit, mul_div_cancel₀ _ (by positivity)]

theorem pow_succ_mul_ulp (x : ℚ) : 2 ^ 53 * ulp x = (2 : ℚ) ^ (binade x + 1) := by
  rw [zpow_add_one₀ two_ne_zero, ← pow_mul_ulp]
  ring

/-- Counted in the distance of its neighbours, a number has 53 bits before the point. -/
theorem significand_bounds {x : ℚ} (hx : 0 < x) : 2 ^ 52 ≤ x / ulp x ∧ x / ulp x < 2 ^ 53 := by
  have hulp := ulp_pos x
  obtain ⟨hlow, hhigh⟩ := zpow_binade_bounds hx
  rw [le_div_iff₀ hulp, div_lt_iff₀ hulp, pow_mul_ulp, pow_succ_mul_ulp]
  exact ⟨hlow, hhigh⟩

/-- A number is never rounded to below its binade. -/
theorem zpow_binade_le_nearest {x : ℚ} (hx : 0 < x) : (2 : ℚ) ^ binade x ≤ nearest x := by
  have hulp := ulp_pos x
  have hfloor : (2 ^ 52 : ℤ) ≤ ⌊x / ulp x⌋ :=
    Int.le_floor.2 (by exact_mod_cast (significand_bounds hx).1)
  have hround : (2 ^ 52 : ℚ) ≤ roundEven (x / ulp x) := by
    exact_mod_cast hfloor.trans (floor_le_roundEven _)
  calc (2 : ℚ) ^ binade x = 2 ^ 52 * ulp x := (pow_mul_ulp x).symm
    _ ≤ roundEven (x / ulp x) * ulp x := by gcongr
    _ = nearest x := by rw [nearest, if_neg hx.not_ge]

/-- A number may be rounded up to the next binade, but not beyond its beginning. -/
theorem nearest_le_zpow_binade {x : ℚ} (hx : 0 < x) : nearest x ≤ (2 : ℚ) ^ (binade x + 1) := by
  have hulp := ulp_pos x
  have hfloor : ⌊x / ulp x⌋ < (2 ^ 53 : ℤ) :=
    Int.floor_lt.2 (by exact_mod_cast (significand_bounds hx).2)
  have hround : (roundEven (x / ulp x) : ℚ) ≤ 2 ^ 53 := by
    exact_mod_cast (roundEven_le_floor_add_one _).trans hfloor
  calc nearest x = roundEven (x / ulp x) * ulp x := by rw [nearest, if_neg hx.not_ge]
    _ ≤ 2 ^ 53 * ulp x := by gcongr
    _ = 2 ^ (binade x + 1) := pow_succ_mul_ulp x

/-- Rounding to 53 significant bits reverses no order. -/
theorem nearest_mono {x y : ℚ} (h : x ≤ y) : nearest x ≤ nearest y := by
  rcases le_or_gt x 0 with hx | hx
  · rw [nearest, if_pos hx]
    exact nearest_nonneg y
  have hy := hx.trans_le h
  rcases (binade_mono hx h).eq_or_lt with heq | hlt
  · -- Within one binade both are rounded to multiples of the same distance.
    have hulp : ulp x = ulp y := by rw [ulp, ulp, heq]
    have hpos := ulp_pos y
    rw [nearest, nearest, if_neg hx.not_ge, if_neg hy.not_ge, hulp]
    gcongr
    exact_mod_cast roundEven_mono (div_le_div_of_nonneg_right h hpos.le)
  -- Across binades the beginning of the upper one lies between.
  · calc nearest x ≤ (2 : ℚ) ^ (binade x + 1) := nearest_le_zpow_binade hx
      _ ≤ 2 ^ binade y := zpow_le_zpow_right₀ one_lt_two_rat.le hlt
      _ ≤ nearest y := zpow_binade_le_nearest hy

/-! ## §3 Scaled pixel counts -/

theorem ratio_nonneg (a b : ℕ) : 0 ≤ ratio a b :=
  nearest_nonneg _

/-- A longer edge has no smaller ratio to the same one. -/
theorem ratio_mono {a a' : ℕ} (h : a ≤ a') (b : ℕ) : ratio a b ≤ ratio a' b := by
  refine nearest_mono ?_
  gcongr

/-- More pixels, or a larger factor, give no smaller count. -/
theorem scale_mono {n n' : ℕ} {f f' : ℚ} (hn : n ≤ n') (hf0 : 0 ≤ f) (hf : f ≤ f') :
    scale n f ≤ scale n' f' := by
  refine roundHalfUp_mono (nearest_mono ?_)
  gcongr

/-- The larger of two factors gives the larger of both counts. -/
theorem scale_max (n : ℕ) (f g : ℚ) : scale n (max f g) = max (scale n f) (scale n g) := by
  have hmono : Monotone (scale n) := fun f g h => by
    refine roundHalfUp_mono (nearest_mono ?_)
    gcongr
  exact hmono.map_max

/-! ## §4 The order of double-precision numbers

Numbers are compared by their exponents first and by their mantissas on a tie. That is the order
of their values only because no mantissa is longer than 53 bits, and none is shorter where a
smaller exponent would do. -/

/-- A mantissa has at most 53 bits, and exactly so many unless the exponent is the least one. -/
def Canonical : UnpackedFloat → Prop
  | .finite _ m e _ => m < 2 ^ 53 ∧ -1074 ≤ e ∧ (-1074 < e → 2 ^ 52 ≤ m)
  | .infinity _ | .notANumber | .zero _ => True

/-- The leading bit of a mantissa is not stored, and adds 2 ^ 52. -/
theorem toNat_one_append (m : BitVec 52) : (1#1 ++ m).toNat = 2 ^ 52 + m.toNat := by
  have hor := Nat.two_pow_add_eq_or_of_lt m.isLt 1
  rw [Nat.mul_one] at hor
  rw [BitVec.toNat_append, hor]
  rfl

/-- Whatever 64 bits are unpacked, the mantissa has the bits that its exponent asks for. -/
theorem canonical_unpack (b : BitVec Format.binary64.numBits) :
    Canonical (UnpackedFloat.unpack .binary64 b) := by
  have hbias : (Format.binary64.exponentBias + Format.binary64.mantissaBitsWithoutImplicit : ℤ) =
      1075 := rfl
  have hm : (UnpackedFloat.unpackMantissa b).toNat < 2 ^ 52 := BitVec.isLt _
  rw [UnpackedFloat.unpack, hbias]
  split_ifs with hlast hinfinity hfirst hzero
  · trivial
  · trivial
  · trivial
  · -- The first exponent stands for the second one and has no leading bit to add.
    have hexponent : (UnpackedFloat.unpackExponent b).toNat = 0 := congrArg BitVec.toNat hfirst
    exact ⟨by omega, by omega, by omega⟩
  · have hexponent : (UnpackedFloat.unpackExponent b).toNat ≠ 0 := fun h =>
      hfirst (BitVec.eq_of_toNat_eq h)
    have hmantissa := toNat_one_append (UnpackedFloat.unpackMantissa b)
    exact ⟨by omega, by omega, by omega⟩

/-- A larger exponent decides, because a mantissa reaches no further than the next one. -/
theorem magnitude_le {m n : ℕ} {e f : ℤ} (hm : m < 2 ^ 53) (hn : e < f → 2 ^ 52 ≤ n)
    (h : ((compare e f).then (compare m n)).isLE = true) : (m * 2 ^ e : ℚ) ≤ n * 2 ^ f := by
  rw [Ordering.isLE_then_iff_or, Std.compare_eq_lt, Std.compare_eq_iff_eq, Nat.isLE_compare] at h
  -- ⟨rfl, hle⟩ | On a tie of the exponents the mantissas decide.
  rcases h with hlt | ⟨rfl, hle⟩
  · have hm' : (m : ℚ) ≤ 2 ^ 53 := by exact_mod_cast hm.le
    have hn' : (2 ^ 52 : ℚ) ≤ n := by exact_mod_cast hn hlt
    calc (m * 2 ^ e : ℚ) ≤ 2 ^ 53 * 2 ^ e := by gcongr
      _ = 2 ^ 52 * 2 ^ (e + 1) := by
          rw [zpow_add_one₀ two_ne_zero]
          ring
      _ ≤ n * 2 ^ f := by
          gcongr
          · exact one_lt_two_rat.le
          · exact hlt
  · gcongr

theorem swap_then_compare (e f : ℤ) (m n : ℕ) :
    ((compare e f).then (compare m n)).swap = (compare f e).then (compare n m) := by
  rw [Ordering.swap_then, ← Std.OrientedCmp.eq_swap, ← Std.OrientedCmp.eq_swap]

/-- Finite numbers in order have values in order, whatever their signs. -/
theorem apply_mul_le {s t : Sign} {m n : ℕ} {e f : ℤ} {hm : 0 < m} {hn : 0 < n}
    (hx : Canonical (.finite s m e hm)) (hy : Canonical (.finite t n f hn))
    (h : (UnpackedFloat.finite s m e hm).le (.finite t n f hn) = true) :
    ((s.apply m : ℤ) * 2 ^ e : ℚ) ≤ (t.apply n : ℤ) * 2 ^ f := by
  obtain ⟨hm53, he, hm52⟩ := hx
  obtain ⟨hn53, hf, hn52⟩ := hy
  have hmpos := positive_value hm e
  have hnpos := positive_value hn f
  -- Magnitudes are compared only where the signs are the same.
  cases s with
  | negative =>
    rw [cast_apply_negative]
    cases t with
    | negative =>
      -- The larger of two negative numbers has the smaller magnitude.
      have hmagnitude : (n * 2 ^ f : ℚ) ≤ m * 2 ^ e := by
        refine magnitude_le hn53 (fun hlt => hm52 (hf.trans_lt hlt)) ?_
        rw [← swap_then_compare]
        exact h
      rw [cast_apply_negative]
      linarith
    | positive =>
      rw [cast_apply_positive]
      linarith
  | positive =>
    cases t with
    | negative => cases h
    | positive => exact magnitude_le hm53 (fun hlt => hn52 (he.trans_lt hlt)) h

/-- Numbers in order have values in order, unless the smaller one is negative infinity or the
    larger one positive infinity. What is not a number is in no order. -/
theorem le_cases {x y : Float} (h : x ≤ y) :
    x.toModel.unpack = .infinity .negative ∨ y.toModel.unpack = .infinity .positive ∨
      ∃ p q, rational? x = some p ∧ rational? y = some q ∧ p ≤ q := by
  have hx : Canonical x.toModel.unpack := canonical_unpack _
  have hy : Canonical y.toModel.unpack := canonical_unpack _
  have hle : x.toModel.unpack.le y.toModel.unpack = true := decide_eq_true_iff.1 h
  rw [rational?, rational?]
  -- One case for each pair of forms; those that are out of order are refuted by evaluation.
  generalize x.toModel.unpack = u at *
  generalize y.toModel.unpack = v at *
  cases u with
  | notANumber => cases hle
  | infinity s =>
    cases s with
    | negative => exact .inl rfl
    | positive =>
      cases v with
      | infinity t =>
        cases t with
        | negative => cases hle
        | positive => exact .inr (.inl rfl)
      | notANumber | zero t | finite t n f hn => cases hle
  | zero s =>
    cases v with
    | notANumber => cases hle
    | infinity t =>
      cases t with
      | negative => cases hle
      | positive => exact .inr (.inl rfl)
    | zero t => exact .inr (.inr ⟨_, _, rfl, rfl, le_rfl⟩)
    | finite t n f hn =>
      cases t with
      | negative => cases hle
      | positive => exact .inr (.inr ⟨_, _, rfl, rfl, (positive_value hn f).le⟩)
  | finite s m e hm =>
    cases v with
    | notANumber => cases s <;> cases hle
    | infinity t =>
      cases t with
      | negative => cases s <;> cases hle
      | positive => exact .inr (.inl rfl)
    | zero t =>
      cases s with
      | negative =>
        refine .inr (.inr ⟨_, _, rfl, rfl, ?_⟩)
        have hpos := positive_value hm e
        rw [cast_apply_negative]
        linarith
      | positive => cases hle
    | finite t n f hn => exact .inr (.inr ⟨_, _, rfl, rfl, apply_mul_le hx hy hle⟩)

/-- Of two sides in order neither has fewer whole pixels, however large they are. -/
theorem toNat_toUInt32_mono {x y : Float} (h : x ≤ y) :
    x.toUInt32.toNat ≤ y.toUInt32.toNat := by
  have hx : x.toUInt32 = x.toModel.unpack.toUInt32 := rfl
  have hy : y.toUInt32 = y.toModel.unpack.toUInt32 := rfl
  obtain hbot | htop | ⟨p, q, hp, hq, hle⟩ := le_cases h
  · rw [hx, hbot]
    exact Nat.zero_le _
  · rw [hy, htop]
    exact Nat.le_of_lt_succ (UInt32.toNat_lt _)
  · rw [toNat_toUInt32 hp, toNat_toUInt32 hq]
    exact min_le_min_right _ (Nat.floor_mono hle)

end Quicklook.Binary
