import Quicklook.Proofs.Raster.Overview
import Quicklook.Proofs.Raster.Size

/-!
# Proportions of overviews

The shorter edge of an overview is the exact proportion rounded to whole pixels, although it comes
out of a rounded quotient and a rounded product. The errors before the last rounding show only
where the exact proportion is halfway between two whole numbers of pixels, and then either of the
two may come out.

For this the product of the counts must not exceed `2 ^ 50`, as it cannot for any raster of less
than a petabyte.

* `roundsTo_proportional`: a scaled edge and its exact proportion
* `overview_rounds`: both edges of the overview of every picture
-/

namespace Quicklook

namespace Box

/-! ## §1 Scaled edges -/

/-- An edge is `short * target / long`, rounded to the nearest whole number of pixels but not to
    none. Where two are equally near, it is one of them. -/
structure RoundsTo (edge short target long : ℕ) : Prop where
  near : edge = 1 ∧ short * target < long ∨
    2 * |(edge * long - short * target : ℤ)| ≤ long
  nearest : (∀ k : ℕ, 2 * (short * target) ≠ (2 * k + 1) * long) →
    (edge : ℤ) = max 1 (round (short * target / long : ℚ))
  halfway : ∀ k : ℕ, 2 * (short * target) = (2 * k + 1) * long →
    edge = max 1 k ∨ edge = k + 1

variable {short target long : UInt32}

/-- An edge that is not scaled up still fits into 32 bits. -/
theorem toNat_proportional_of_le (hlong : 1 ≤ long.toNat) (hle : target.toNat ≤ long.toNat) :
    (proportional short target long).toNat =
      max 1 (Binary.scale short.toNat (Binary.ratio target.toNat long.toNat)) := by
  have hscale := Binary.scale_le hlong short.toNat_lt.le (Nat.mul_le_mul_left _ hle)
  have hlt := short.toNat_lt
  rw [toNat_proportional]
  omega

/-- A scaled edge is the exact proportion, rounded correctly. -/
theorem roundsTo_proportional (hshort : 1 ≤ short.toNat) (htarget : 1 ≤ target.toNat)
    (hle : target.toNat ≤ long.toNat) (hsmall : short.toNat * target.toNat ≤ 2 ^ 50) :
    RoundsTo (proportional short target long).toNat short.toNat target.toNat long.toNat := by
  have hlong : 1 ≤ long.toNat := htarget.trans hle
  have hpos : 0 < short.toNat * target.toNat := Nat.mul_pos hshort htarget
  have hnear := Binary.abs_scale_sub_le hlong hpos hsmall
  have hnearest := Binary.scale_eq_round hlong hpos hsmall
  have hhalfway := fun k => Binary.scale_of_half (k := k) hlong hpos hsmall
  rw [toNat_proportional_of_le hlong hle]
  -- What was rounded is known by its error alone; how it was computed no longer matters.
  generalize Binary.scale short.toNat (Binary.ratio target.toNat long.toNat) = m at *
  exact {
    near := by
      cases m with
      | zero =>
        -- Half a pixel or less is rounded to nothing, and that to one pixel.
        rw [Nat.cast_zero, zero_mul, zero_sub, abs_neg, abs_of_nonneg (by positivity)] at hnear
        have hhalf : 2 * (short.toNat * target.toNat) ≤ long.toNat := by exact_mod_cast hnear
        exact .inl ⟨rfl, by omega⟩
      | succ m => exact .inr (by rwa [max_eq_right (Nat.succ_pos m)])
    nearest := fun h => by
      rw [← hnearest h]
      push_cast
      rfl
    halfway := fun k hk => by
      rcases hhalfway k hk with rfl | rfl
      · exact .inl rfl
      · exact .inr (max_eq_right (Nat.succ_pos k)) }

/-! ## §2 Overviews -/

section Overview

variable {width height : UInt32} {side : Float}

/-- A picture that is not upright is bounded in width. -/
theorem overview_of_le (h : height ≤ width) :
    overview width height side =
      ⟨min width (bound side), proportional height (min width (bound side)) width⟩ :=
  if_pos h

theorem overview_of_lt (h : width < height) :
    overview width height side =
      ⟨proportional width (min height (bound side)) height, min height (bound side)⟩ :=
  if_neg (Nat.not_le.2 h)

theorem one_le_min_bound {long : UInt32} (h : long ≠ 0) : 1 ≤ (min long (bound side)).toNat := by
  rw [UInt32.toNat_min]
  exact le_min (UInt32.pos_iff_ne_zero.2 h) (one_le_bound side)

theorem min_bound_le {long : UInt32} : (min long (bound side)).toNat ≤ long.toNat :=
  (UInt32.toNat_min _ _).trans_le (min_le_left _ _)

theorem overview_rounds_landscape (hw : width ≠ 0) (hh : height ≠ 0) (h : height ≤ width)
    (hsmall : height.toNat * (overview width height side).width.toNat ≤ 2 ^ 50) :
    RoundsTo (overview width height side).height.toNat height.toNat
      (overview width height side).width.toNat width.toNat := by
  rw [overview_of_le h] at hsmall ⊢
  exact roundsTo_proportional (UInt32.pos_iff_ne_zero.2 hh) (one_le_min_bound hw)
    min_bound_le hsmall

theorem overview_rounds_portrait (hw : width ≠ 0) (hh : height ≠ 0) (h : width < height)
    (hsmall : width.toNat * (overview width height side).height.toNat ≤ 2 ^ 50) :
    RoundsTo (overview width height side).width.toNat width.toNat
      (overview width height side).height.toNat height.toNat := by
  rw [overview_of_lt h] at hsmall ⊢
  exact roundsTo_proportional (UInt32.pos_iff_ne_zero.2 hw) (one_le_min_bound hh)
    min_bound_le hsmall

end Overview

end Box

/-! ## §3 Rasters -/

/-- A raster has no more pixels than bytes. -/
theorem Raster.mul_le_exactCount (r : Raster) :
    r.width.toNat * r.height.toNat ≤ exactCount r.width r.height r.components := by
  -- There are three components or four.
  have hcomponents : 1 ≤ r.components.toNat := by
    rcases r.layout with hc | hc <;> rw [hc] <;> decide
  exact Nat.le_mul_of_pos_right _ hcomponents

/-- **The shorter edge of an overview is rounded correctly.** Whatever the side, the shorter edge
    is the proportion of the longer one in whole pixels, and at least one: the nearest number of
    them, or one of two that are equally near. This holds where the shorter edge of the picture
    times the longer one of the overview is at most `2 ^ 50`, and that is so for every raster of
    at most so many bytes, which is more than a petabyte. -/
theorem Box.overview_rounds :
    (∀ (width height : UInt32) (side : Float), width ≠ 0 → height ≠ 0 →
      let box := overview width height side
      (height ≤ width → height.toNat * box.width.toNat ≤ 2 ^ 50 →
        RoundsTo box.height.toNat height.toNat box.width.toNat width.toNat) ∧
      (width < height → width.toNat * box.height.toNat ≤ 2 ^ 50 →
        RoundsTo box.width.toNat width.toNat box.height.toNat height.toNat)) ∧
    ∀ (r : Raster) (side : Float), exactCount r.width r.height r.components ≤ 2 ^ 50 →
      let box := r.overviewBox side
      (r.height ≤ r.width →
        RoundsTo box.height.toNat r.height.toNat box.width.toNat r.width.toNat) ∧
      (r.width < r.height →
        RoundsTo box.width.toNat r.width.toNat box.height.toNat r.height.toNat) := by
  constructor
  · intro width height side hw hh box
    exact ⟨overview_rounds_landscape hw hh, overview_rounds_portrait hw hh⟩
  · intro r side hsize box
    obtain ⟨hw, hh⟩ := r.nonempty
    have hpixels := r.mul_le_exactCount.trans hsize
    -- The longer edge of the overview is no longer than that of the raster.
    have hfits := overview_fits hw hh side
    constructor
    · intro h
      refine overview_rounds_landscape hw hh h ?_
      calc r.height.toNat * box.width.toNat
          ≤ r.height.toNat * r.width.toNat := Nat.mul_le_mul_left _ hfits.width_le
        _ = r.width.toNat * r.height.toNat := Nat.mul_comm _ _
        _ ≤ 2 ^ 50 := hpixels
    · intro h
      refine overview_rounds_portrait hw hh h ?_
      exact (Nat.mul_le_mul_left _ hfits.height_le).trans hpixels

/-- With 1024 pixels of 1234 the other 987 become 819.03, and with two pixels of four the other
    three become one and a half. -/
theorem Box.overview_rounds_to_819 :
    let r : Raster := ⟨4, 3, 3, List.replicate 36 0, by decide, by decide, by decide⟩
    (overview 1234 987 1024).width.toNat = 1024 ∧ (overview 1234 987 1024).height.toNat = 819 ∧
      (overview 987 1234 1024).width.toNat = 819 ∧
      exactCount r.width r.height r.components ≤ 2 ^ 50 ∧
      ((r.overviewBox 2.5).height.toNat = 1 ∨ (r.overviewBox 2.5).height.toNat = 2) := by
  intro r
  have hsize : exactCount r.width r.height r.components ≤ 2 ^ 50 := by decide
  have hbound : bound 1024 = 1024 := by decide +kernel
  have hbound' : bound 2.5 = 2 := by decide +kernel
  have hwidth : (overview 1234 987 1024).width.toNat = 1024 := by
    rw [overview_of_le (by decide), hbound]
    rfl
  have hheight : (overview 987 1234 1024).height.toNat = 1024 := by
    rw [overview_of_lt (by decide), hbound]
    rfl
  have hwidth' : (r.overviewBox 2.5).width.toNat = 2 := by
    rw [Raster.overviewBox, overview_of_le (by decide), hbound']
    rfl
  -- Only one whole number of pixels is near enough.
  have hunique : ∀ edge, RoundsTo edge 987 1024 1234 → edge = 819 := by
    rintro edge ⟨⟨-, hshort⟩ | hnear, -, -⟩
    · exact absurd hshort (by decide)
    · rw [← abs_two, ← abs_mul, abs_le] at hnear
      omega
  obtain ⟨hrounds, hraster⟩ := overview_rounds
  have hlandscape := (hrounds 1234 987 1024 (by decide) (by decide)).1 (by decide)
    (by rw [hwidth]; decide)
  have hportrait := (hrounds 987 1234 1024 (by decide) (by decide)).2 (by decide)
    (by rw [hheight]; decide)
  -- The exact height is one and a half, which is halfway.
  have htie := ((hraster r 2.5 hsize).1 (by decide)).halfway 1
  rw [hwidth] at hlandscape
  rw [hheight] at hportrait
  rw [hwidth'] at htie
  exact ⟨hwidth, hunique _ hlandscape, hunique _ hportrait, hsize, htie rfl⟩

end Quicklook
