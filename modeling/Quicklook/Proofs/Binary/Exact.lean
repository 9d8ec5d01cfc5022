import Mathlib.Algebra.Order.Field.Power
import Mathlib.Data.Rat.Floor
import Mathlib.Tactic.NormNum
import Mathlib.Tactic.Positivity
import Quicklook.Settings.Basic

/-!
# Exact values of double-precision numbers

Every finite number stands for a rational. What is done with the bound on overviews is stated in
terms of that rational: whether the bound can be used, and how many whole pixels it has.

* `toNat_toUInt32`: whole pixels are the floor of the value, as far as 32 bits reach
* `isUsable_iff`: the usable sides are those with a positive value
* `rational?_effectiveSide`: the value of the side that is used
-/

namespace Quicklook

open Float.Model (UnpackedFloat)
open Float.Model.UnpackedFloat (Sign ExtendedMantissa)

namespace Binary

/-- The value of a finite number. -/
def rational? (x : Float) : Option ℚ :=
  match x.toModel.unpack with
  | .zero _ => some 0
  | .finite sign m e _ => some (sign.apply m * 2 ^ e)
  | .infinity _ | .notANumber => none

/-! ## §1 Whole parts -/

/-- A number that 32 bits do not hold becomes the largest one they do. -/
theorem toNat_ofNatClamp (n : ℕ) : (UInt32.ofNatClamp n).toNat = min n (2 ^ 32 - 1) := by
  rw [UInt32.ofNatClamp]
  split
  case isTrue h =>
    have hlt : n < 2 ^ 32 := h
    rw [UInt32.toNat_ofNatLT]
    omega
  case isFalse h =>
    have hle : ¬ n < 2 ^ 32 := h
    have hsize : UInt32.size = 2 ^ 32 := rfl
    rw [UInt32.toNat_ofNatLT]
    omega

/-- Shifting a mantissa to the right divides it, rounding down. -/
private theorem mantissa_repeat_shiftRightOne (em : ExtendedMantissa) (k : ℕ) :
    (Nat.repeat ExtendedMantissa.shiftRightOne k em).mantissa = em.mantissa / 2 ^ k := by
  induction k with
  | zero => exact (Nat.div_one _).symm
  | succ k ih =>
    have hstep : (Nat.repeat ExtendedMantissa.shiftRightOne (k + 1) em).mantissa =
        (Nat.repeat ExtendedMantissa.shiftRightOne k em).mantissa / 2 := rfl
    rw [hstep, ih, Nat.div_div_eq_div_mul, pow_succ]

/-- Bits below the unit are cut off, so that a positive number is rounded down. -/
private theorem roundToInt_eq (sign : Sign) (m : ℕ) (e : ℤ) :
    UnpackedFloat.roundToInt sign m e =
      sign.apply ((m * 2 ^ e.toNat / 2 ^ (-e).toNat : ℕ) : ℤ) := by
  -- The mantissa is first shifted left by a positive exponent, which loses nothing, and then
  -- right by what is left of a negative one.
  have hshift : (0 - (e - (e.toNat : ℤ))).toNat = (-e).toNat := by omega
  simp only [UnpackedFloat.roundToInt, UnpackedFloat.decreaseExponent,
    UnpackedFloat.shiftToExponent, ExtendedMantissa.ofMantissaAndAccuracy, HShiftRight.hShiftRight,
    mantissa_repeat_shiftRightOne, sub_zero, hshift, Nat.shiftLeft_eq]

/-- The whole part of a scaled mantissa, computed with whole numbers only. -/
private theorem floor_mul_zpow (m : ℕ) (e : ℤ) :
    ⌊(m * 2 ^ e : ℚ)⌋₊ = m * 2 ^ e.toNat / 2 ^ (-e).toNat := by
  rcases le_or_gt 0 e with he | he
  · obtain ⟨k, rfl⟩ := Int.eq_ofNat_of_zero_le he
    have hneg : (-(k : ℤ)).toNat = 0 := by omega
    have hcast : (m * 2 ^ (k : ℤ) : ℚ) = ((m * 2 ^ k : ℕ) : ℚ) := by
      push_cast
      rw [zpow_natCast]
    rw [hcast, Nat.floor_natCast, hneg, Int.toNat_natCast, pow_zero, Nat.div_one]
  -- A negative exponent divides, and the floor of a quotient of whole numbers is their quotient.
  · obtain ⟨k, rfl⟩ : ∃ k : ℕ, e = -k := ⟨(-e).toNat, by omega⟩
    have hneg : (-(k : ℤ)).toNat = 0 := by omega
    have hcast : (m * 2 ^ (-(k : ℤ)) : ℚ) = (m : ℚ) / ((2 ^ k : ℕ) : ℚ) := by
      push_cast
      rw [zpow_neg, zpow_natCast, div_eq_mul_inv]
    rw [hcast, Rat.natFloor_natCast_div_natCast, hneg, neg_neg, Int.toNat_natCast, pow_zero,
      mul_one]

/-- A mantissa that is not zero has a positive value, whatever its exponent. -/
theorem positive_value {m : ℕ} (hm : 0 < m) (e : ℤ) : (0 : ℚ) < m * 2 ^ e := by
  have hm' : (0 : ℚ) < m := by exact_mod_cast hm
  positivity

theorem cast_apply_negative (m : ℕ) : ((Sign.negative.apply m : ℤ) : ℚ) = -m := by
  simp [Sign.apply]

theorem cast_apply_positive (m : ℕ) : ((Sign.positive.apply m : ℤ) : ℚ) = m := rfl

/-- The whole pixels of a side are the floor of its value, as far as 32 bits reach. A negative
    side has none. -/
theorem toNat_toUInt32 {x : Float} {q : ℚ} (h : rational? x = some q) :
    x.toUInt32.toNat = min ⌊q⌋₊ (2 ^ 32 - 1) := by
  have hunpack : x.toUInt32 = x.toModel.unpack.toUInt32 := rfl
  rw [hunpack, UnpackedFloat.toUInt32, toNat_ofNatClamp]
  -- The conversion looks at the form of the number, and only a finite one has a value.
  cases hx : x.toModel.unpack with
  | zero sign =>
    rw [rational?, hx] at h
    obtain rfl := Option.some.inj h
    rw [Nat.floor_zero]
    rfl
  | finite sign m e hm =>
    rw [rational?, hx] at h
    obtain rfl := Option.some.inj h
    change min (UnpackedFloat.roundToInt sign m e).toNat _ = _
    rw [roundToInt_eq]
    cases sign with
    | negative =>
      have hpos := positive_value hm e
      rw [cast_apply_negative, Nat.floor_of_nonpos (by linarith)]
      exact congrArg (min · _) (Int.toNat_eq_zero.2 (neg_nonpos.2 (Int.natCast_nonneg _)))
    | positive =>
      rw [cast_apply_positive, floor_mul_zpow]
      rfl
  | infinity sign =>
    rw [rational?, hx] at h
    cases h
  | notANumber =>
    rw [rational?, hx] at h
    cases h

end Binary

/-! ## §2 Sides of overviews -/

namespace Rendering

open Binary (rational?)

private theorem unpack_zero : (0 : Float).toModel.unpack = .zero .positive := by
  -- Only the Boolean test can be evaluated; it tells the cases apart.
  have h : ((0 : Float).toModel.unpack == .zero .positive) = true := by decide +kernel
  cases hx : (0 : Float).toModel.unpack with
  | zero sign =>
    cases sign with
    | positive => rfl
    | negative => rw [hx] at h; cases h
  | infinity sign => rw [hx] at h; cases h
  | notANumber => rw [hx] at h; cases h
  | finite sign m e hm => rw [hx] at h; cases h

private theorem zero_lt_iff (x : Float) :
    0 < x ↔ (UnpackedFloat.zero .positive).lt x.toModel.unpack = true := by
  rw [← unpack_zero]
  exact decide_eq_true_iff

/-- The usable sides are those with a positive value. -/
theorem isUsable_iff (side : Float) :
    isUsable side = true ↔ ∃ q, rational? side = some q ∧ 0 < q := by
  have hfinite : side.isFinite = side.toModel.unpack.isFinite := rfl
  rw [isUsable, Bool.and_eq_true, decide_eq_true_iff, zero_lt_iff, hfinite, rational?]
  -- A usable side is finite and above zero, so each form of a number is looked at for both.
  cases side.toModel.unpack with
  | infinity sign => exact iff_of_false (fun h => nomatch h.1) fun ⟨_, hq, _⟩ => nomatch hq
  | notANumber => exact iff_of_false (fun h => nomatch h.1) fun ⟨_, hq, _⟩ => nomatch hq
  | zero sign =>
    refine iff_of_false (fun h => nomatch h.2) ?_
    rintro ⟨q, hq, hq0⟩
    obtain rfl := Option.some.inj hq
    exact lt_irrefl 0 hq0
  | finite sign m e hm =>
    have hpos := Binary.positive_value hm e
    cases sign with
    | negative =>
      refine iff_of_false (fun h => nomatch h.2) ?_
      rintro ⟨q, hq, hq0⟩
      obtain rfl := Option.some.inj hq
      rw [Binary.cast_apply_negative, neg_mul, neg_pos] at hq0
      exact absurd hpos hq0.not_gt
    | positive =>
      refine iff_of_true ⟨rfl, rfl⟩ ⟨_, rfl, ?_⟩
      rw [Binary.cast_apply_positive]
      exact hpos

/-- The value of the side that is used: the configured one if it has a positive value, otherwise
    1024. -/
def exactSide (s : Rendering) : ℚ :=
  ((rational? s.overviewSide).filter (0 < ·)).getD 1024

theorem exactSide_pos (s : Rendering) : 0 < s.exactSide := by
  unfold exactSide
  cases h : (rational? s.overviewSide).filter (0 < ·) with
  | none => norm_num
  | some q => simpa using (Option.filter_eq_some_iff.1 h).2

private theorem rational?_defaultSide : rational? defaultSide = some 1024 := by
  decide +kernel

theorem rational?_effectiveSide (s : Rendering) :
    rational? s.effectiveSide.value = some s.exactSide := by
  rw [value_effectiveSide, exactSide]
  by_cases h : isUsable s.overviewSide = true
  · obtain ⟨q, hq, hpos⟩ := (isUsable_iff _).1 h
    rw [if_pos h, hq]
    simp [Option.filter, hpos]
  -- A side that cannot be used has no positive value, so both fall back to the default.
  · rw [if_neg h, rational?_defaultSide]
    cases hq : rational? s.overviewSide with
    | none => rfl
    | some q =>
      have hnot : ¬ 0 < q := fun hpos => h ((isUsable_iff _).2 ⟨q, hq, hpos⟩)
      simp [Option.filter, hnot]

end Rendering

end Quicklook
