import Mathlib.Data.UInt
import Quicklook.Proofs.Binary.Exact
import Quicklook.Proofs.Binary.Rounding
import Quicklook.Proofs.Pipeline.Stages
import Quicklook.Proofs.Raster.Alpha

/-!
# Boxes of overviews

The longer edge of an overview is bounded by whole pixels, and the shorter one is computed with
two roundings. Neither edge ever comes out longer than that of the source, and neither is empty,
so that an encoder never refuses the box.

* `proportional_le`, `proportional_eq`: the shorter edge, from the error of scaled pixel counts
* `overview_fits`: the box for any source that is not empty
* `overviewBox_fits`: the box that a pipeline asks for, with the value of the side that is used,
  and that no request of the pipeline has an invalid box
-/

namespace Quicklook

namespace Box

/-! ## §1 Edges -/

/-- A scaled edge as a number: rounded twice, brought into 32 bits and at least one. -/
theorem toNat_proportional (edge target reference : UInt32) :
    (proportional edge target reference).toNat =
      max 1 (min (Binary.scale edge.toNat (Binary.ratio target.toNat reference.toNat))
        (2 ^ 32 - 1)) := by
  rw [proportional, UInt32.toNat_max, Binary.toNat_ofNatClamp]
  rfl

variable {edge target reference limit : UInt32}

/-- A limit that the exact proportion keeps is kept by the rounded one. -/
theorem proportional_le (hlimit : 1 ≤ limit.toNat) (href : 1 ≤ reference.toNat)
    (h : edge.toNat * target.toNat ≤ limit.toNat * reference.toNat) :
    (proportional edge target reference).toNat ≤ limit.toNat := by
  have hscale := Binary.scale_le href limit.toNat_lt.le h
  rw [toNat_proportional]
  omega

/-- A limit that the exact proportion meets is met by the rounded one. -/
theorem proportional_eq (hlimit : 1 ≤ limit.toNat) (href : 1 ≤ reference.toNat)
    (h : edge.toNat * target.toNat = limit.toNat * reference.toNat) :
    (proportional edge target reference).toNat = limit.toNat := by
  have hscale := Binary.scale_eq href limit.toNat_lt.le h
  have hlt := limit.toNat_lt
  rw [toNat_proportional, hscale]
  omega

/-! ## §2 Overviews -/

/-- What the box of an overview should be: it has pixels and is nowhere larger than the source,
    the longer edge is as long as the bound admits and stays the longer one, a square stays a
    square, and a source within the bound keeps its size. -/
structure Fits (box : Box) (width height bound : ℕ) : Prop where
  width_pos : 1 ≤ box.width.toNat
  height_pos : 1 ≤ box.height.toNat
  width_le : box.width.toNat ≤ width
  height_le : box.height.toNat ≤ height
  landscape : height ≤ width →
    box.width.toNat = min width bound ∧ box.height.toNat ≤ box.width.toNat
  portrait : width < height →
    box.height.toNat = min height bound ∧ box.width.toNat ≤ box.height.toNat
  square : width = height → box.width = box.height
  within : max width height ≤ bound → box.width.toNat = width ∧ box.height.toNat = height

/-- The same for both edges, the longer one first, whichever of them is the width. -/
structure EdgesFit (long short : UInt32) (source₁ source₂ bound : ℕ) : Prop where
  long_eq : long.toNat = min source₁ bound
  short_pos : 1 ≤ short.toNat
  short_le : short.toNat ≤ source₂
  short_le_long : short.toNat ≤ long.toNat
  square : source₁ = source₂ → short = long
  within : source₁ ≤ bound → short.toNat = source₂

theorem edgesFit {long short b : UInt32} (hb : 1 ≤ b.toNat) (hshort : 1 ≤ short.toNat)
    (h : short.toNat ≤ long.toNat) :
    EdgesFit (min long b) (proportional short (min long b) long) long.toNat short.toNat
      b.toNat := by
  have hlong : 1 ≤ long.toNat := hshort.trans h
  have hmin := UInt32.toNat_min long b
  have hmin_pos : 1 ≤ (min long b).toNat := by omega
  have hmin_le : (min long b).toNat ≤ long.toNat := by omega
  exact {
    long_eq := hmin
    short_pos := by
      rw [toNat_proportional]
      exact le_max_left 1 _
    -- The factor is at most one, so the source edge is a limit of the exact proportion,
    -- and so is the longer edge of the box because the source is no longer in that direction.
    short_le := proportional_le hshort hlong (Nat.mul_le_mul_left _ hmin_le)
    short_le_long := by
      refine proportional_le hmin_pos hlong ?_
      rw [Nat.mul_comm]
      exact Nat.mul_le_mul_left _ h
    -- In these two cases the exact proportion is whole, and rounding does not move it.
    square := fun hsquare => by
      refine UInt32.toNat_inj.1 (proportional_eq hmin_pos hlong ?_)
      rw [hsquare, Nat.mul_comm]
    within := fun hwithin => by
      refine proportional_eq hshort hlong ?_
      rw [hmin, min_eq_left hwithin] }

/-- Even a side of nothing leaves one pixel. -/
theorem one_le_bound (side : Float) : 1 ≤ (bound side).toNat := by
  rw [bound, UInt32.toNat_max]
  exact le_max_left 1 _

/-- The box of every source that is not empty is as it should be. -/
theorem overview_fits {width height : UInt32} (hw : width ≠ 0) (hh : height ≠ 0) (side : Float) :
    (overview width height side).Fits width.toNat height.toNat (bound side).toNat := by
  have hb := one_le_bound side
  have hw' : 1 ≤ width.toNat := UInt32.pos_iff_ne_zero.2 hw
  have hh' : 1 ≤ height.toNat := UInt32.pos_iff_ne_zero.2 hh
  -- The width counts as the longer edge of a square.
  by_cases h : height ≤ width
  · obtain ⟨long_eq, short_pos, short_le, short_le_long, square, within⟩ := edgesFit hb hh' h
    rw [overview, if_pos h]
    exact {
      width_pos := by
        change 1 ≤ (min width (bound side)).toNat
        omega
      height_pos := short_pos
      width_le := by
        change (min width (bound side)).toNat ≤ _
        omega
      height_le := short_le
      landscape := fun _ => ⟨long_eq, short_le_long⟩
      portrait := fun hlt => absurd hlt (Nat.not_lt.2 h)
      square := fun hsquare => (square hsquare).symm
      within := fun hmax => by
        have hle : width.toNat ≤ (bound side).toNat := (le_max_left _ _).trans hmax
        exact ⟨by rw [long_eq, min_eq_left hle], within hle⟩ }
  · have h' : width.toNat ≤ height.toNat := (Nat.lt_of_not_le h).le
    obtain ⟨long_eq, short_pos, short_le, short_le_long, square, within⟩ := edgesFit hb hw' h'
    rw [overview, if_neg h]
    exact {
      width_pos := short_pos
      height_pos := by
        change 1 ≤ (min height (bound side)).toNat
        omega
      width_le := short_le
      height_le := by
        change (min height (bound side)).toNat ≤ _
        omega
      landscape := fun hle => absurd hle h
      portrait := fun _ => ⟨long_eq, short_le_long⟩
      square := fun hsquare => square hsquare.symm
      within := fun hmax => by
        have hle : height.toNat ≤ (bound side).toNat := (le_max_right _ _).trans hmax
        exact ⟨within hle, by rw [long_eq, min_eq_left hle]⟩ }

end Box

/-! ## §3 Requests of a pipeline -/

section Requests

variable (codec : Codec) (quality : Jpeg.Quality) (r : Raster)

/-- A box with pixels is not refused. -/
theorem ofCodec_boxed_ne_invalidBox {box : Box} (hw : box.width ≠ 0) (hh : box.height ≠ 0)
    (w h : UInt32) :
    (Encoder.ofCodec codec quality).boxed r box ≠ .error (.invalidBox w h) := by
  have hbox : ¬ (box.width = 0 ∨ box.height = 0) := not_or.2 ⟨hw, hh⟩
  simp only [Encoder.ofCodec, Raster.fillBox, if_neg hbox]
  -- What may still go wrong is resampling or the coder, and both have errors of their own.
  split
  · cases hj : codec.jpeg (Picture.filled r box (FillPlan.make r.width r.height box)) quality <;>
      simp [bind, Except.bind, hj, Codec.lift]
  · simp [bind, Except.bind]

theorem ofCodec_lossy_ne_invalidBox (profile : Jp2.Profile) (w h : UInt32) :
    (Encoder.ofCodec codec quality).lossy r profile ≠ .error (.invalidBox w h) := by
  rw [r.lossy_eq]
  cases codec.jp2 (r.job profile) <;> simp [Codec.lift]

/-- No request for a raster has an invalid box. -/
theorem run_call_ne_invalidBox {p : Pipeline} (hp : p.encoder = .ofCodec codec quality)
    (role : Role) (w h : UInt32) :
    (p.call r role).run p.encoder r ≠ .error (.invalidBox w h) := by
  rw [hp]
  -- Thumbnails are of a fixed size, overviews fit, and originals have no box.
  cases role with
  | thumbnail => exact ofCodec_boxed_ne_invalidBox codec quality r (by decide) (by decide) w h
  | overview =>
    have hfits := Box.overview_fits r.nonempty.1 r.nonempty.2
      p.settings.rendering.effectiveSide.value
    exact ofCodec_boxed_ne_invalidBox codec quality r
      (UInt32.pos_iff_ne_zero.1 hfits.width_pos) (UInt32.pos_iff_ne_zero.1 hfits.height_pos) w h
  | original => exact ofCodec_lossy_ne_invalidBox codec quality r _ w h

end Requests

/-- The whole pixels of the side that is used. -/
theorem Rendering.toNat_bound_effectiveSide (s : Rendering) :
    (Box.bound s.effectiveSide.value).toNat = max 1 (min ⌊s.exactSide⌋₊ (2 ^ 32 - 1)) := by
  rw [Box.bound, UInt32.toNat_max, Binary.toNat_toUInt32 s.rational?_effectiveSide]
  rfl

/-- **Overviews fit.** The side that is used is a positive number, whatever is configured. The
    box that is asked for with it fits every raster: it has pixels and enlarges neither edge, its
    longer edge is as long as the whole part of the side admits, a square stays a square, and a
    raster within the side keeps its size. And of all that a pipeline with the standard encoder
    asks for, whatever codec it has, nothing is refused for its box. -/
theorem Raster.overviewBox_fits (settings : Settings) (r : Raster) :
    Binary.rational? settings.rendering.effectiveSide.value = some settings.rendering.exactSide ∧
    0 < settings.rendering.exactSide ∧
    (r.overviewBox settings.rendering.effectiveSide.value).Fits r.width.toNat r.height.toNat
      (max 1 (min ⌊settings.rendering.exactSide⌋₊ (2 ^ 32 - 1))) ∧
    ∀ (decoder : Decoder) (codec : Codec) (quality : Jpeg.Quality) (title : String),
      let p : Pipeline := ⟨settings, decoder, .ofCodec codec quality⟩
      ∀ call ∈ (p.renderAll r title).requests, ∀ w h,
        call.2.run p.encoder call.1 ≠ .error (.invalidBox w h) := by
  refine ⟨settings.rendering.rational?_effectiveSide, settings.rendering.exactSide_pos, ?_, ?_⟩
  · rw [← settings.rendering.toNat_bound_effectiveSide]
    exact Box.overview_fits r.nonempty.1 r.nonempty.2 _
  · intro decoder codec quality title p call hcall w h
    obtain ⟨role, -, rfl⟩ := List.mem_map.1
      (p.requests_renderRoles r title .none p.stages ▸ hcall)
    exact run_call_ne_invalidBox codec quality r rfl role w h

/-- A side of two and a half pixels: the longer edge of 4 x 3 pixels becomes two pixels, and the
    box is not refused. -/
theorem Raster.landscape_overview_not_refused :
    let r : Raster := ⟨4, 3, 3, List.replicate 36 0, by decide, by decide, by decide⟩
    let p : Pipeline := ⟨⟨⟨true, true, 2.5, 120⟩, .default⟩, fun _ => pure (.ok none),
      .ofCodec .headers .standard⟩
    let box := r.overviewBox p.settings.rendering.effectiveSide.value
    (r, .boxed box) ∈ (p.renderAll r "a").requests ∧ box.width.toNat = 2 ∧
      p.encoder.boxed r box ≠ .error (.invalidBox 2 2) := by
  intro r p box
  have hside : p.settings.rendering.exactSide = 5 / 2 := by decide +kernel
  have hfloor : ⌊(5 / 2 : ℚ)⌋₊ = 2 := (Nat.floor_eq_iff (by norm_num)).2 (by norm_num)
  obtain ⟨-, -, hfits, hmade⟩ := overviewBox_fits p.settings r
  have hcall : (r, .boxed box) ∈ (p.renderAll r "a").requests := by
    rw [Pipeline.requests_renderAll]
    exact List.mem_cons_of_mem _ (List.mem_cons_self ..)
  refine ⟨hcall, ?_, hmade p.decoder .headers .standard "a" _ hcall 2 2⟩
  have hwidth := (hfits.landscape (by decide)).1
  rw [hside, hfloor] at hwidth
  exact hwidth

end Quicklook
