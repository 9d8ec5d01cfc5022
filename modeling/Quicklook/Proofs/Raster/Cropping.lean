import Quicklook.Proofs.Raster.Filling
import Quicklook.Proofs.Raster.Proportion

/-!
# What an overview loses

The box of an overview has the shape of the picture up to the rounding of its shorter edge. So
filling it resizes the shorter edge exactly, and only the longer one may be resized beyond the box
and cropped. The rounding of the shorter edge is magnified on the longer one by the ratio of both,
which shows in thin pictures.

* `cropsLong_proportional`: both edges of a picture, the longer one first
* `overview_crops_long`: the overview of every raster
-/

namespace Quicklook

/-! ## §1 The longer and the shorter edge -/

/-- What filling its box does to a picture, whichever of its edges is the width: the longer one is
    not enlarged and still covers that of the box, the shorter one is resized to that of the box,
    and what is cropped off is at most half a pixel of the shorter edge, magnified, and a pixel
    more. -/
structure FillPlan.CropsLong (long short target edge resized resized' : ℕ) : Prop where
  target_le : target ≤ resized
  resized_le : resized ≤ long
  short_eq : resized' = edge
  excess_le : long ≤ 2 * (short * target) → short * target ≤ 2 ^ 50 →
    2 * short * (resized - target) ≤ long + 2 * short

namespace Box

section Edges

variable {short target long : UInt32}

/-- An edge of half a pixel or more is rounded up by half a pixel at most. -/
theorem proportional_mul_le (hshort : 1 ≤ short.toNat) (htarget : 1 ≤ target.toNat)
    (hle : target.toNat ≤ long.toNat) (hhalf : long.toNat ≤ 2 * (short.toNat * target.toNat))
    (hsmall : short.toNat * target.toNat ≤ 2 ^ 50) :
    2 * ((proportional short target long).toNat * long.toNat) ≤
      long.toNat + 2 * (short.toNat * target.toNat) := by
  rcases (roundsTo_proportional hshort htarget hle hsmall).near with ⟨hone, -⟩ | hnear
  -- A single pixel is no more than twice the exact proportion, even where it was raised to that.
  · rw [hone]
    omega
  · have hdiff := le_abs_self
      ((proportional short target long).toNat * long.toNat - short.toNat * target.toNat : ℤ)
    zify
    linarith

/-- The pixel that the longer edge may be rounded up by, and the half pixel of the shorter one. -/
theorem excess_le {long short target edge resized : ℕ}
    (hlong : resized * short < long * edge + short)
    (hshort : 2 * (edge * long) ≤ long + 2 * (short * target)) :
    2 * short * (resized - target) ≤ long + 2 * short := by
  rcases Nat.le_total resized target with hle | hle
  · rw [Nat.sub_eq_zero_of_le hle]
    exact Nat.zero_le _
  -- With the excess as a number of its own, all products are of two edges and add up.
  · obtain ⟨k, rfl⟩ := Nat.exists_eq_add_of_le hle
    rw [Nat.add_sub_cancel_left]
    linarith

/-- Filling the box of an overview, seen from the longer edge and the shorter one. -/
theorem cropsLong_proportional (hshort : 1 ≤ short.toNat) (htarget : 1 ≤ target.toNat)
    (hle : target.toNat ≤ long.toNat) :
    let edge := proportional short target long
    FillPlan.CropsLong long.toNat short.toNat target.toNat edge.toNat
      (max 1 (max target.toNat
        (Binary.scale long.toNat (Binary.ratio edge.toNat short.toNat))))
      (max 1 (max edge.toNat
        (Binary.scale short.toNat (Binary.ratio target.toNat long.toNat)))) := by
  intro edge
  have hlong : 1 ≤ long.toNat := htarget.trans hle
  have hedge : edge.toNat = max 1 (Binary.scale short.toNat
      (Binary.ratio target.toNat long.toNat)) := toNat_proportional_of_le hlong hle
  have hedge_le : edge.toNat ≤ short.toNat :=
    proportional_le hshort hlong (Nat.mul_le_mul_left _ hle)
  -- Scaled by what became of the shorter edge, the longer one stays within the picture.
  have hproduct : long.toNat * edge.toNat ≤ long.toNat * short.toNat :=
    Nat.mul_le_mul_left _ hedge_le
  have hscale := Binary.scale_le hshort long.toNat_lt.le hproduct
  have hround := Binary.scale_mul_lt hshort long.toNat_lt.le hproduct
  exact {
    target_le := by omega
    resized_le := by omega
    short_eq := by omega
    excess_le := fun hhalf hsmall => by
      have hnear := proportional_mul_le hshort htarget hle hhalf hsmall
      have hexcess := excess_le hround hnear
      -- Where the box decides about the longer edge, nothing of it is cropped off.
      generalize Binary.scale long.toNat _ = scaled at hexcess ⊢
      have hsub : max 1 (max target.toNat scaled) - target.toNat = scaled - target.toNat := by
        omega
      rwa [hsub] }

end Edges

/-! ## §2 Overviews -/

section Overviews

variable {width height : UInt32} {side : Float}

theorem overview_crops_landscape (hw : width ≠ 0) (hh : height ≠ 0) (h : height ≤ width) :
    let box := overview width height side
    let plan := FillPlan.make width height box
    FillPlan.CropsLong width.toNat height.toNat box.width.toNat box.height.toNat plan.width
      plan.height := by
  intro box plan
  rw [FillPlan.make_width hw, FillPlan.make_height hh, show box = _ from overview_of_le h]
  exact cropsLong_proportional (UInt32.pos_iff_ne_zero.2 hh) (one_le_min_bound hw)
    min_bound_le

theorem overview_crops_portrait (hw : width ≠ 0) (hh : height ≠ 0) (h : width < height) :
    let box := overview width height side
    let plan := FillPlan.make width height box
    FillPlan.CropsLong height.toNat width.toNat box.height.toNat box.width.toNat plan.height
      plan.width := by
  intro box plan
  rw [FillPlan.make_width hw, FillPlan.make_height hh, show box = _ from overview_of_lt h]
  exact cropsLong_proportional (UInt32.pos_iff_ne_zero.2 hw) (one_le_min_bound hh)
    min_bound_le

end Overviews

end Box

namespace FillPlan

variable {width height : UInt32} {box : Box}

/-- An edge that is resized to that of the box is not cropped. -/
theorem rows_kept (h : (make width height box).height = box.height.toNat) :
    (make width height box).top = 0 ∧
      (make width height box).croppedHeight box = (make width height box).height := by
  have htop := make_top width height box
  rw [croppedHeight]
  omega

theorem columns_kept (h : (make width height box).width = box.width.toNat) :
    (make width height box).left = 0 ∧
      (make width height box).croppedWidth box = (make width height box).width := by
  have hleft := make_left width height box
  rw [croppedWidth]
  omega

end FillPlan

/-- **An overview is cropped along its longer edge only.** For any raster and any side, be it
    negative, infinite or not a number, no edge is enlarged on the way to the box, so that the
    resized edges always have 32-bit words. The shorter edge is resized to that of the box, and
    none of it is cropped off. The longer one is resized to at least that of the box, and if the
    shorter one is half a pixel or more by the exact proportion and the product of the pixel counts
    is at most `2 ^ 50`, what is cropped off is no more than the ratio of both edges of the raster,
    halved, and one pixel. -/
theorem Raster.overview_crops_long (r : Raster) (side : Float) :
    let box := r.overviewBox side
    let plan := FillPlan.make r.width r.height box
    (plan.width ≤ r.width.toNat ∧ plan.height ≤ r.height.toNat) ∧
    (plan.width < 2 ^ 32 ∧ plan.height < 2 ^ 32) ∧
    (r.height ≤ r.width →
      FillPlan.CropsLong r.width.toNat r.height.toNat box.width.toNat box.height.toNat
        plan.width plan.height ∧
      plan.top = 0 ∧ plan.croppedHeight box = plan.height) ∧
    (r.width < r.height →
      FillPlan.CropsLong r.height.toNat r.width.toNat box.height.toNat box.width.toNat
        plan.height plan.width ∧
      plan.left = 0 ∧ plan.croppedWidth box = plan.width) := by
  intro box plan
  obtain ⟨hw, hh⟩ := r.nonempty
  -- Which edge is cropped is settled by the shape of the raster.
  have hlandscape : r.height ≤ r.width → FillPlan.CropsLong r.width.toNat r.height.toNat
      box.width.toNat box.height.toNat plan.width plan.height :=
    Box.overview_crops_landscape hw hh
  have hportrait : r.width < r.height → FillPlan.CropsLong r.height.toNat r.width.toNat
      box.height.toNat box.width.toNat plan.height plan.width :=
    Box.overview_crops_portrait hw hh
  have hfits := Box.overview_fits hw hh side
  -- The shorter edge is that of the box, which is no longer than that of the raster.
  have hsmaller : plan.width ≤ r.width.toNat ∧ plan.height ≤ r.height.toNat := by
    rcases UInt32.lt_or_le r.width r.height with hlt | hle
    · have hcrops := hportrait hlt
      exact ⟨hcrops.short_eq.trans_le hfits.width_le, hcrops.resized_le⟩
    · have hcrops := hlandscape hle
      exact ⟨hcrops.resized_le, hcrops.short_eq.trans_le hfits.height_le⟩
  exact ⟨hsmaller,
    ⟨hsmaller.1.trans_lt r.width.toNat_lt, hsmaller.2.trans_lt r.height.toNat_lt⟩,
    fun hle => ⟨hlandscape hle, FillPlan.rows_kept (hlandscape hle).short_eq⟩,
    fun hlt => ⟨hportrait hlt, FillPlan.columns_kept (hportrait hlt).short_eq⟩⟩

/-- Twenty pixels by one, either way around, with a side of ten pixels: the half pixel of the
    shorter edge is rounded up to one, so that up to eleven pixels of the longer one may be cropped
    off. -/
theorem Raster.thin_overview_crops_long :
    let r : Raster := ⟨20, 1, 3, List.replicate 60 0, by decide, by decide, by decide⟩
    let r' : Raster := ⟨1, 20, 3, List.replicate 60 0, by decide, by decide, by decide⟩
    let plan := FillPlan.make r.width r.height (r.overviewBox 10)
    let plan' := FillPlan.make r'.width r'.height (r'.overviewBox 10)
    (10 ≤ plan.width ∧ plan.width ≤ 20 ∧ plan.top = 0 ∧ 2 * 1 * (plan.width - 10) ≤ 20 + 2 * 1) ∧
      10 ≤ plan'.height ∧ plan'.height ≤ 20 ∧ plan'.left = 0 ∧
      2 * 1 * (plan'.height - 10) ≤ 20 + 2 * 1 := by
  intro r r' plan plan'
  have hbound : Box.bound 10 = 10 := by decide +kernel
  have hwidth : (r.overviewBox 10).width.toNat = 10 := by
    rw [overviewBox, Box.overview_of_le (by decide), hbound]
    rfl
  have hheight : (r'.overviewBox 10).height.toNat = 10 := by
    rw [overviewBox, Box.overview_of_lt (by decide), hbound]
    rfl
  obtain ⟨-, -, hlandscape, -⟩ := overview_crops_long r 10
  obtain ⟨⟨htarget, hsmaller, -, hexcess⟩, htop, -⟩ := hlandscape (by decide)
  obtain ⟨-, -, -, hportrait⟩ := overview_crops_long r' 10
  obtain ⟨⟨htarget', hsmaller', -, hexcess'⟩, hleft, -⟩ := hportrait (by decide)
  rw [hwidth] at htarget hexcess
  rw [hheight] at htarget' hexcess'
  exact ⟨⟨htarget, hsmaller, htop, hexcess (by decide) (by decide)⟩,
    htarget', hsmaller', hleft, hexcess' (by decide) (by decide)⟩

end Quicklook
