import Quicklook.Proofs.Binary.Monotone
import Quicklook.Proofs.Raster.Proportion

/-!
# Laws of overview sizes

The box of an overview is computed with two roundings, and yet it behaves like one that is
computed exactly. Sizing it again with the same side does not change it, a longer side never makes
an edge shorter, and it does not matter which edge of the picture is called the width.

* `proportional_mono`, `bound_mono`: the steps from a side to an edge, none of which reverses an
  order
* `overview_idem`, `overview_mono`, `overview_turned`: the laws one by one
* `min_overview`: the shorter edge of a box, whichever it is
* `overview_idem_mono_symm`: all of the laws, and how the shorter edge grows with that of the
  picture
-/

namespace Quicklook

namespace Box

/-- The box with its edges exchanged. -/
def turned (box : Box) : Box :=
  ⟨box.height, box.width⟩

/-! ## §1 Edges in order -/

section Edges

variable {short long : UInt32}

theorem min_of_le (h : short ≤ long) : min short long = short :=
  if_pos h

theorem max_of_le (h : short ≤ long) : max short long = long :=
  if_pos h

theorem min_swap (a b : UInt32) : min a b = min b a := by
  rw [← UInt32.toNat_inj, UInt32.toNat_min, UInt32.toNat_min, Nat.min_comm]

theorem max_swap (a b : UInt32) : max a b = max b a := by
  rw [← UInt32.toNat_inj, UInt32.toNat_max, UInt32.toNat_max, Nat.max_comm]

theorem min_mono_right (edge : UInt32) {a b : UInt32} (h : a ≤ b) : min edge a ≤ min edge b := by
  rw [UInt32.le_iff_toNat_le, UInt32.toNat_min, UInt32.toNat_min]
  exact min_le_min_left _ h

/-- A scaled edge grows with the edge and with the target. -/
theorem proportional_mono {edge edge' target target' : UInt32} (hedge : edge ≤ edge')
    (htarget : target ≤ target') (reference : UInt32) :
    proportional edge target reference ≤ proportional edge' target' reference := by
  have hscale := Binary.scale_mono hedge (Binary.ratio_nonneg _ _)
    (Binary.ratio_mono htarget reference.toNat)
  rw [UInt32.le_iff_toNat_le, toNat_proportional, toNat_proportional]
  exact max_le_max_left _ (min_le_min_right _ hscale)

/-- A longer side has no smaller bound. -/
theorem bound_mono {side side' : Float} (h : side ≤ side') : bound side ≤ bound side' := by
  rw [UInt32.le_iff_toNat_le, bound, bound, UInt32.toNat_max, UInt32.toNat_max]
  exact max_le_max_left _ (Binary.toNat_toUInt32_mono h)

end Edges

/-! ## §2 Laws -/

section Laws

variable {width height : UInt32}

/-- A longer side makes neither edge shorter. -/
theorem overview_mono (width height : UInt32) {side side' : Float} (h : side ≤ side') :
    (overview width height side).width ≤ (overview width height side').width ∧
      (overview width height side).height ≤ (overview width height side').height := by
  have hbound := bound_mono h
  -- Which edge is the longer one does not depend on the side.
  rcases UInt32.lt_or_le width height with hlt | hle
  · rw [overview_of_lt hlt, overview_of_lt hlt]
    have hlong := min_mono_right height hbound
    exact ⟨proportional_mono UInt32.le_rfl hlong height, hlong⟩
  · rw [overview_of_le hle, overview_of_le hle]
    have hlong := min_mono_right width hbound
    exact ⟨hlong, proportional_mono UInt32.le_rfl hlong width⟩

/-- A picture that is turned has a box that is turned. -/
theorem overview_turned (hw : width ≠ 0) (hh : height ≠ 0) (side : Float) :
    overview height width side = (overview width height side).turned := by
  by_cases hsquare : width = height
  · -- The width counts as the longer edge both times, but the box is a square.
    subst hsquare
    have hedges := (overview_fits hw hh side).square rfl
    rw [turned, ← hedges]
    exact congrArg (Box.mk _) hedges.symm
  · rcases UInt32.lt_or_lt_of_ne hsquare with hlt | hlt
    · rw [overview_of_lt hlt, overview_of_le (UInt32.le_of_lt hlt)]
      rfl
    · rw [overview_of_lt hlt, overview_of_le (UInt32.le_of_lt hlt)]
      rfl

/-- A box is within the bound that it was made for, and so it is its own overview. -/
theorem overview_idem (hw : width ≠ 0) (hh : height ≠ 0) (side : Float) :
    overview (overview width height side).width (overview width height side).height side =
      overview width height side := by
  have hfits := overview_fits hw hh side
  -- From here on it is any box that fits.
  generalize overview width height side = box at hfits ⊢
  have hwithin : max box.width.toNat box.height.toNat ≤ (bound side).toNat := by
    rcases Nat.lt_or_ge width.toNat height.toNat with hlt | hle
    · obtain ⟨hlong, hshort⟩ := hfits.portrait hlt
      omega
    · obtain ⟨hlong, hshort⟩ := hfits.landscape hle
      omega
  -- A picture within the bound keeps its size.
  obtain ⟨hwidth, hheight⟩ := (overview_fits (UInt32.pos_iff_ne_zero.1 hfits.width_pos)
    (UInt32.pos_iff_ne_zero.1 hfits.height_pos) side).within hwithin
  have hwidth' := UInt32.toNat_inj.1 hwidth
  have hheight' := UInt32.toNat_inj.1 hheight
  calc overview box.width box.height side
      = ⟨(overview box.width box.height side).width, (overview box.width box.height side).height⟩ :=
        rfl
    _ = box := by rw [hwidth', hheight']

/-- The shorter edge of a box is a function of the edges of the picture in order. -/
theorem min_overview (hw : width ≠ 0) (hh : height ≠ 0) (side : Float) :
    min (overview width height side).width (overview width height side).height =
      proportional (min width height) (min (max width height) (bound side))
        (max width height) := by
  have hfits := overview_fits hw hh side
  rcases UInt32.lt_or_le width height with hlt | hle
  · have hshort := (hfits.portrait hlt).2
    rw [min_of_le hshort, min_of_le (UInt32.le_of_lt hlt), max_of_le (UInt32.le_of_lt hlt),
      overview_of_lt hlt]
  · have hshort := (hfits.landscape hle).2
    rw [min_swap, min_of_le hshort, min_swap width, min_of_le hle, max_swap, max_of_le hle,
      overview_of_le hle]

/-- **Sizing is idempotent, monotone and symmetric.** For any picture with pixels and any side,
    be it negative, infinite or not a number: a box sized with the side that it was made for stays
    as it is; a longer side makes neither edge shorter; the turned picture has the turned box, also
    if it is a square; and where the longer edges of two pictures agree, turned or not, the shorter
    edges of their boxes are in the order of their own. -/
theorem overview_idem_mono_symm (hw : width ≠ 0) (hh : height ≠ 0) (side : Float) :
    let box := overview width height side
    overview box.width box.height side = box ∧
    (∀ side' : Float, side ≤ side' →
      box.width ≤ (overview width height side').width ∧
        box.height ≤ (overview width height side').height) ∧
    overview height width side = box.turned ∧
    ∀ width' height' : UInt32, max width height = max width' height' →
      min width height ≤ min width' height' →
      let box' := overview width' height' side
      min box.width box.height ≤ min box'.width box'.height := by
  refine ⟨overview_idem hw hh side, fun side' => overview_mono width height,
    overview_turned hw hh side, ?_⟩
  intro width' height' hlong hshort box'
  -- The other picture has pixels as well, because its shorter edge is no shorter.
  obtain ⟨hw', hh'⟩ : width' ≠ 0 ∧ height' ≠ 0 := by
    have hpos : 1 ≤ (min width height).toNat := by
      rw [UInt32.toNat_min]
      exact le_min (UInt32.pos_iff_ne_zero.2 hw) (UInt32.pos_iff_ne_zero.2 hh)
    have hpos' := hpos.trans (UInt32.le_iff_toNat_le.1 hshort)
    rw [UInt32.toNat_min] at hpos'
    obtain ⟨hwidth, hheight⟩ := le_min_iff.1 hpos'
    exact ⟨UInt32.pos_iff_ne_zero.1 hwidth, UInt32.pos_iff_ne_zero.1 hheight⟩
  calc min (overview width height side).width (overview width height side).height
      = proportional (min width height) (min (max width height) (bound side))
          (max width height) := min_overview hw hh side
    _ ≤ proportional (min width' height') (min (max width height) (bound side))
          (max width height) := proportional_mono hshort UInt32.le_rfl _
    _ = proportional (min width' height') (min (max width' height') (bound side))
          (max width' height') := by rw [hlong]
    _ = min box'.width box'.height := (min_overview hw' hh' side).symm

/-- Two pixels by four, with a side of two and a half pixels and one of three, and beside a
    picture of four pixels by three. -/
theorem overview_of_two_by_four :
    let box := overview 2 4 2.5
    let box' := overview 4 3 2.5
    (2.5 : Float) ≤ 3 ∧ overview box.width box.height 2.5 = box ∧
      box.height ≤ (overview 2 4 3).height ∧ overview 4 2 2.5 = box.turned ∧
      min box.width box.height ≤ min box'.width box'.height := by
  intro box box'
  have hside : (2.5 : Float) ≤ 3 := by decide +kernel
  obtain ⟨hidem, hmono, hturned, hshort⟩ :=
    overview_idem_mono_symm (show (2 : UInt32) ≠ 0 by decide) (show (4 : UInt32) ≠ 0 by decide) 2.5
  exact ⟨hside, hidem, (hmono 3 hside).2, hturned, hshort 4 3 (by decide) (by decide)⟩

end Laws

end Box

end Quicklook
