import Quicklook.Proofs.Binary.Monotone
import Quicklook.Proofs.Raster.Overview

/-!
# Filled boxes

A picture is resized by the larger of the two edge ratios, and either ratio has been rounded when
an edge is multiplied with it and rounded again. The edge whose ratio is taken comes out as the
edge of the box all the same, and the other one no shorter than that, because rounding keeps the
order of the ratios. So the crop is inside the resized picture and has the size of the box.

* `make_width`, `make_height`: the resized edges by both ratios
* `make_covers`: the plan for every size and every box
* `boxed_reaches_box`: what an encoder makes of any box
-/

namespace Quicklook

/-! ## §1 Plans -/

namespace FillPlan

variable {width height : UInt32} {box : Box}

/-- What the plan for a box should be: neither edge is resized below the box, one of them exactly
    to it, and the crop is inside the resized picture. -/
structure Covers (p : FillPlan) (box : Box) : Prop where
  width_le : box.width.toNat ≤ p.width
  height_le : box.height.toNat ≤ p.height
  tight : p.width = box.width.toNat ∨ p.height = box.height.toNat
  columns_le : p.left + box.width.toNat ≤ p.width
  rows_le : p.top + box.height.toNat ≤ p.height

theorem factor_eq_max (width height : UInt32) (box : Box) :
    factor width height box = max (Binary.ratio box.width.toNat width.toNat)
      (Binary.ratio box.height.toNat height.toNat) :=
  (max_def_lt _ _).symm

/-- An edge times its own ratio is the edge of the box. -/
theorem scale_own {edge target : UInt32} (h : edge ≠ 0) :
    Binary.scale edge.toNat (Binary.ratio target.toNat edge.toNat) = target.toNat :=
  Binary.scale_eq (UInt32.pos_iff_ne_zero.2 h) target.toNat_lt.le (Nat.mul_comm _ _)

/-- Under a smaller factor it is no longer than that. -/
theorem scale_other_le {edge target : UInt32} {f : ℚ} (h : edge ≠ 0) (hf0 : 0 ≤ f)
    (hf : f ≤ Binary.ratio target.toNat edge.toNat) : Binary.scale edge.toNat f ≤ target.toNat :=
  (Binary.scale_mono le_rfl hf0 hf).trans (scale_own h).le

/-- A row becomes as long as that of the box, unless the other ratio makes it longer. -/
theorem make_width (hw : width ≠ 0) (height : UInt32) (box : Box) :
    (make width height box).width = max 1 (max box.width.toNat
      (Binary.scale width.toNat (Binary.ratio box.height.toNat height.toNat))) := by
  change max 1 (Binary.scale width.toNat (factor width height box)) = _
  rw [factor_eq_max, Binary.scale_max, scale_own hw]

theorem make_height (hh : height ≠ 0) (width : UInt32) (box : Box) :
    (make width height box).height = max 1 (max box.height.toNat
      (Binary.scale height.toNat (Binary.ratio box.width.toNat width.toNat))) := by
  change max 1 (Binary.scale height.toNat (factor width height box)) = _
  rw [factor_eq_max, Binary.scale_max, scale_own hh, max_comm box.height.toNat]

theorem make_left (width height : UInt32) (box : Box) :
    (make width height box).left = ((make width height box).width - box.width.toNat) / 2 :=
  rfl

theorem make_top (width height : UInt32) (box : Box) :
    (make width height box).top = ((make width height box).height - box.height.toNat) / 2 :=
  rfl

/-- The plan for every box with pixels is as it should be. -/
theorem make_covers (hw : width ≠ 0) (hh : height ≠ 0) (hboxw : box.width ≠ 0)
    (hboxh : box.height ≠ 0) : (make width height box).Covers box := by
  have hboxw' : 1 ≤ box.width.toNat := UInt32.pos_iff_ne_zero.2 hboxw
  have hboxh' : 1 ≤ box.height.toNat := UInt32.pos_iff_ne_zero.2 hboxh
  have hwidth := make_width hw height box
  have hheight := make_height hh width box
  have hleft := make_left width height box
  have htop := make_top width height box
  exact {
    width_le := by omega
    height_le := by omega
    -- The larger ratio does not make its own edge longer than the box.
    tight := by
      rcases le_total (Binary.ratio box.height.toNat height.toNat)
        (Binary.ratio box.width.toNat width.toNat) with hacross | hdown
      · have hle := scale_other_le hw (Binary.ratio_nonneg _ _) hacross
        left
        omega
      · have hle := scale_other_le hh (Binary.ratio_nonneg _ _) hdown
        right
        omega
    columns_le := by omega
    rows_le := by omega }

/-- Nothing of a crop that is inside the picture is missing. -/
theorem Covers.fills {p : FillPlan} (h : p.Covers box) : p.Fills box := by
  obtain ⟨-, -, -, hcolumns, hrows⟩ := h
  constructor
  · rw [croppedWidth]
    omega
  · rw [croppedHeight]
    omega

end FillPlan

/-! ## §2 Files for a box -/

namespace Raster

variable (codec : Codec) (quality : Jpeg.Quality) (r : Raster) {box : Box}

theorem fillBox_eq_ok (hw : box.width ≠ 0) (hh : box.height ≠ 0) :
    r.fillBox box = .ok (Picture.filled r box (FillPlan.make r.width r.height box)) := by
  have hfills := (FillPlan.make_covers r.nonempty.1 r.nonempty.2 hw hh).fills
  have hbox : ¬ (box.width = 0 ∨ box.height = 0) := not_or.2 ⟨hw, hh⟩
  rw [fillBox, if_neg hbox]
  exact if_pos hfills

/-- A codec that fails is not said to have failed in the resize. -/
theorem lift_ne_resample (note : String) (result : Except String Bytes) (reason : String) :
    Codec.lift note result ≠ .error (.resample reason) := by
  cases result <;> simp [Codec.lift]

/-- The only box that is refused is the one that was asked for, and only if it has no pixels. -/
theorem boxed_eq_invalidBox_iff (w h : UInt32) :
    (Encoder.ofCodec codec quality).boxed r box = .error (.invalidBox w h) ↔
      (box.width = 0 ∨ box.height = 0) ∧ w = box.width ∧ h = box.height := by
  constructor
  · intro hrefused
    have hempty : box.width = 0 ∨ box.height = 0 := by
      by_contra hbox
      obtain ⟨hw, hh⟩ := not_or.1 hbox
      exact ofCodec_boxed_ne_invalidBox codec quality r hw hh w h hrefused
    rw [(ofCodec_boxed_invalidBox_iff codec quality r box).2 hempty] at hrefused
    cases hrefused
    exact ⟨hempty, rfl, rfl⟩
  -- The edges in the error are those of the box.
  · rintro ⟨hempty, rfl, rfl⟩
    exact (ofCodec_boxed_invalidBox_iff codec quality r box).2 hempty

/-- **Boxes are reached exactly.** A box is refused as invalid if and only if one of its edges is
    empty. For any other one, whenever both resized edges fit into 32-bit words: neither of them is
    shorter than that of the box, one is as long, the crop is inside the resized picture, and what
    the codec is given has the size of the box. So the codec alone decides about the file, and the
    resize never fails. -/
theorem boxed_reaches_box (box : Box) :
    let boxed := (Encoder.ofCodec codec quality).boxed r box
    let plan := FillPlan.make r.width r.height box
    (∀ w h, boxed = .error (.invalidBox w h) ↔
      (box.width = 0 ∨ box.height = 0) ∧ w = box.width ∧ h = box.height) ∧
    (box.width ≠ 0 → box.height ≠ 0 →
      ∀ w h : UInt32, w.toNat = plan.width → h.toNat = plan.height →
      (box.width ≤ w ∧ box.height ≤ h ∧ (w = box.width ∨ h = box.height)) ∧
      (plan.left + box.width.toNat ≤ w.toNat ∧ plan.top + box.height.toNat ≤ h.toNat) ∧
      (∃ picture, r.fillBox box = .ok picture ∧
        picture.width = box.width.toNat ∧ picture.height = box.height.toNat ∧
        boxed = Codec.lift "JPEG encode failed: " (codec.jpeg picture quality)) ∧
      ∀ reason, boxed ≠ .error (.resample reason)) := by
  intro boxed plan
  refine ⟨boxed_eq_invalidBox_iff codec quality r, fun hboxw hboxh w h hw hh => ?_⟩
  have hcovers := FillPlan.make_covers r.nonempty.1 r.nonempty.2 hboxw hboxh
  obtain ⟨hwidth, hheight⟩ := hcovers.fills
  have hpicture := fillBox_eq_ok r hboxw hboxh
  -- With a picture of the right size the coder is what is left of the encoder.
  have hboxed : boxed = Codec.lift "JPEG encode failed: "
      (codec.jpeg (Picture.filled r box plan) quality) := by
    change (r.fillBox box >>= fun p => Codec.lift _ (codec.jpeg p quality)) = _
    rw [hpicture]
    rfl
  -- What is left is the plan in words, and that an error of the codec is none of the resize.
  refine ⟨⟨?_, ?_, ?_⟩, ⟨?_, ?_⟩, ⟨_, hpicture, hwidth, hheight, hboxed⟩, ?_⟩
  · rw [UInt32.le_iff_toNat_le, hw]
    exact hcovers.width_le
  · rw [UInt32.le_iff_toNat_le, hh]
    exact hcovers.height_le
  · rw [← UInt32.toNat_inj, ← UInt32.toNat_inj, hw, hh]
    exact hcovers.tight
  · rw [hw]
    exact hcovers.columns_le
  · rw [hh]
    exact hcovers.rows_le
  · intro reason
    rw [hboxed]
    exact lift_ne_resample _ _ reason

/-- Four pixels by three in a box of eight by eight: they are resized to eleven by eight, since
    the ten and two thirds are rounded, and the crop has no failure of its own. -/
theorem four_by_three_reaches_box :
    let r : Raster := ⟨4, 3, 3, List.replicate 36 0, by decide, by decide, by decide⟩
    let plan := FillPlan.make r.width r.height ⟨8, 8⟩
    (11 : UInt32).toNat = plan.width ∧ (8 : UInt32).toNat = plan.height ∧
      plan.left + 8 ≤ 11 ∧
      (∃ picture, r.fillBox ⟨8, 8⟩ = .ok picture ∧ picture.width = 8 ∧ picture.height = 8) ∧
      ∀ reason,
        (Encoder.ofCodec .headers .standard).boxed r ⟨8, 8⟩ ≠ .error (.resample reason) := by
  intro r plan
  have hwidth : (11 : UInt32).toNat = plan.width := by decide +kernel
  have hheight : (8 : UInt32).toNat = plan.height := by decide +kernel
  obtain ⟨-, hreached⟩ := boxed_reaches_box .headers .standard r ⟨8, 8⟩
  obtain ⟨-, ⟨hcolumns, -⟩, ⟨picture, hfill, hpw, hph, -⟩, hresample⟩ :=
    hreached (by decide) (by decide) 11 8 hwidth hheight
  exact ⟨hwidth, hheight, hcolumns, ⟨picture, hfill, hpw, hph⟩, hresample⟩

end Raster

end Quicklook
