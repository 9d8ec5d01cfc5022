import Quicklook.Proofs.Raster.Pixels
import Quicklook.Proofs.Raster.Size
import Quicklook.Rendition.Basic

/-!
# Alpha and lossy files

A lossy file in full size has no alpha. It is not blended in either: red, green and blue are taken
over as they are, so that two rasters which differ in nothing but alpha have the same file, and so
has the raster without any.

Every raster has the exact size, and it fits into a word. So no pixel is cut off at the end, and the
samples are as many as the coder expects.

* `length_rgb`, `getElem?_rgb`: the samples without alpha, by their places
* `make?_job`, `lossy_eq`: the coder is always reached, and what it is given
* `rgb_eq_of_sameButAlpha`: alpha makes no difference to the samples
* `lossy_ignores_alpha`: nor to anything that an original depends on
-/

namespace Quicklook.Raster

/-! ## §1 Samples without alpha -/

/-- The number of pixels. -/
def area (r : Raster) : Nat :=
  r.width.toNat * r.height.toNat

variable {r s : Raster}

theorem length_pixels_eq_mul (r : Raster) : r.pixels.length = r.components.toNat * r.area := by
  rw [r.length_pixels, exactCount, area, Nat.mul_comm]

/-- With or without alpha, the samples are changed pixel by pixel. -/
theorem exists_pixelWise_rgb (r : Raster) :
    ∃ f, PixelWise f r.components.toNat [0, 1, 2] ∧ r.rgb = f r.pixels := by
  -- Without alpha the samples stay as they are, otherwise each fourth one is dropped.
  rcases r.layout with hc | hc
  · refine ⟨Colour.spread .rgb, ?_, ?_⟩
    · rw [hc]
      exact Colour.pixelWise_spread .rgb
    · simp [rgb, hasAlpha, hc, Colour.spread]
  · refine ⟨dropAlpha, ?_, ?_⟩
    · rw [hc]
      exact pixelWise_dropAlpha
    · simp [rgb, hasAlpha, hc, dropAlpha]

theorem length_rgb (r : Raster) : r.rgb.length = 3 * r.area := by
  obtain ⟨f, hf, hrgb⟩ := r.exists_pixelWise_rgb
  rw [hrgb]
  exact hf.length_eq r.length_pixels_eq_mul

/-- The three samples of a pixel are its first three components. -/
theorem getElem?_rgb (r : Raster) {i k : Nat} (hi : i < r.area) (hk : k < 3) :
    r.rgb[3 * i + k]? = r.pixels[r.components.toNat * i + k]? := by
  obtain ⟨f, hf, hrgb⟩ := r.exists_pixelWise_rgb
  have hplace : ([0, 1, 2] : List Nat)[k]? = some k := List.getElem?_range hk
  rw [hrgb]
  exact hf.getElem?_eq r.length_pixels_eq_mul hi hplace

/-! ## §2 What the coder is given -/

/-- What a lossy file of a raster is made of. -/
def job (r : Raster) (profile : Jp2.Profile) : Jp2.Job :=
  { samples := r.rgb
    width := r.width
    height := r.height
    ratio := profile.ratio
    resolutions := profile.resolutionCount r.shortEdge }

/-- The samples are as many as the dimensions say, so that they are never refused. -/
theorem make?_job (r : Raster) (profile : Jp2.Profile) :
    Jp2.Job.make? r.rgb r.width r.height profile = some (.ok (r.job profile)) := by
  have hlength : r.rgb.length = exactCount r.width r.height 3 :=
    r.length_rgb.trans (Nat.mul_comm _ _)
  obtain ⟨n, hn, hcount⟩ := Option.map_eq_some_iff.1
    (map_byteCount?_iff.2 ⟨hlength, r.exactCount_three_lt⟩)
  rw [Jp2.Job.make?, hn, Option.map_some, if_pos hcount.symm]
  rfl

/-- The coder is reached with the samples of every raster. -/
theorem lossy_eq (r : Raster) (codec : Codec) (quality : Jpeg.Quality) (profile : Jp2.Profile) :
    (Encoder.ofCodec codec quality).lossy r profile =
      Codec.lift "" (codec.jp2 (r.job profile)) := by
  simp only [Encoder.ofCodec, r.make?_job profile, Option.get_some]
  rfl

/-! ## §3 Rasters that differ in alpha -/

/-- Both rasters have alpha, and they differ in nothing else. -/
structure SameButAlpha (r s : Raster) : Prop where
  width_eq : r.width = s.width
  height_eq : r.height = s.height
  left : r.components = 4
  right : s.components = 4
  colour : ∀ i k, k < 3 → r.pixels[4 * i + k]? = s.pixels[4 * i + k]?

/-- Two rasters have the same original: the coder is given the same samples, dimensions and
    resolutions for both, and so the rendition is the same, be it a file or a failure. -/
structure SameOriginal (r s : Raster) : Prop where
  job_eq : ∀ profile, r.job profile = s.job profile
  create_eq : ∀ (codec : Codec) (quality : Jpeg.Quality) (title : String) (side : Float),
    Rendition.create (.ofCodec codec quality) .original r title side =
      Rendition.create (.ofCodec codec quality) .original s title side

namespace SameButAlpha

theorem area_eq (h : SameButAlpha r s) : r.area = s.area := by
  rw [area, area, h.width_eq, h.height_eq]

end SameButAlpha

theorem rgb_eq_of_sameButAlpha (h : SameButAlpha r s) : r.rgb = s.rgb := by
  apply List.ext_getElem?
  intro j
  by_cases hj : j < 3 * r.area
  -- Every sample belongs to a pixel, and there it is not the fourth one.
  · have hi : j / 3 < r.area := Nat.div_lt_of_lt_mul hj
    have hk : j % 3 < 3 := Nat.mod_lt j (by decide)
    have hplace : j = 3 * (j / 3) + j % 3 := (Nat.div_add_mod j 3).symm
    have hleft := r.getElem?_rgb hi hk
    have hright := s.getElem?_rgb (h.area_eq ▸ hi) hk
    rw [h.left] at hleft
    rw [h.right] at hright
    rw [hplace, hleft, hright]
    exact h.colour _ _ hk
  · rw [List.getElem?_eq_none (by rw [r.length_rgb]; omega),
      List.getElem?_eq_none (by rw [s.length_rgb, ← h.area_eq]; omega)]

/-- An original depends on nothing but the dimensions and the colours. -/
theorem sameOriginal_of_rgb_eq (hwidth : r.width = s.width) (hheight : r.height = s.height)
    (hrgb : r.rgb = s.rgb) : SameOriginal r s := by
  have hjob : ∀ profile, r.job profile = s.job profile := by
    intro profile
    simp only [job, shortEdge, hwidth, hheight, hrgb]
  refine ⟨hjob, fun codec quality title side => ?_⟩
  -- The request of an original goes to the coder through its job and nothing else.
  simp only [Rendition.create, Rendition.request, Rendition.Request.run, lossy_eq, hjob]

/-- **Alpha has no influence on originals.** The samples of a lossy file are three for each pixel,
    and they are its red, green and blue. They are always as many as the coder expects, so that it
    is reached and given just these. Every raster that differs in nothing but alpha has the same
    original, and so has the raster that is made of the samples without alpha; it can be made. -/
theorem lossy_ignores_alpha (r : Raster) :
    r.rgb.length = 3 * (r.width.toNat * r.height.toNat) ∧
    (∀ i < r.width.toNat * r.height.toNat, ∀ k < 3,
      r.rgb[3 * i + k]? = r.pixels[r.components.toNat * i + k]?) ∧
    (∀ (codec : Codec) (quality : Jpeg.Quality) (profile : Jp2.Profile),
      Jp2.Job.make? r.rgb r.width r.height profile = some (.ok (r.job profile)) ∧
      (Encoder.ofCodec codec quality).lossy r profile =
        Codec.lift "" (codec.jp2 (r.job profile))) ∧
    (∀ s, SameButAlpha r s → SameOriginal r s) ∧
    ∃ t, make? r.width r.height 3 r.rgb = some (.ok t) ∧ SameOriginal r t := by
  refine ⟨r.length_rgb, fun i hi k hk => r.getElem?_rgb hi hk,
    fun codec quality profile => ⟨r.make?_job profile, r.lossy_eq codec quality profile⟩, ?_, ?_⟩
  · intro s hs
    exact sameOriginal_of_rgb_eq hs.width_eq hs.height_eq (rgb_eq_of_sameButAlpha hs)
  -- A raster of three components has just these samples.
  · have hlength : r.rgb.length = exactCount r.width r.height 3 :=
      r.length_rgb.trans (Nat.mul_comm _ _)
    have hfilled := map_byteCount?_iff.2 ⟨hlength, r.exactCount_three_lt⟩
    exact ⟨⟨r.width, r.height, 3, r.rgb, r.nonempty, .inl rfl, hfilled⟩,
      make?_of_filled r.nonempty (.inl rfl) hfilled, sameOriginal_of_rgb_eq rfl rfl rfl⟩

/-- Two pixels, once with alpha 0 and 128 and once with 9 and 255. -/
theorem original_of_other_alpha :
    let r : Raster := ⟨2, 1, 4, [10, 20, 30, 0, 40, 50, 60, 128], by decide, by decide, by decide⟩
    let s : Raster := ⟨2, 1, 4, [10, 20, 30, 9, 40, 50, 60, 255], by decide, by decide, by decide⟩
    SameButAlpha r s ∧ r.rgb = [10, 20, 30, 40, 50, 60] ∧ r.job .lossy = s.job .lossy := by
  intro r s
  have hs : SameButAlpha r s := by
    refine ⟨rfl, rfl, rfl, rfl, fun i k hk => ?_⟩
    -- There are no samples behind the second pixel.
    match i, k, hk with
    | 0, 0, _ | 0, 1, _ | 0, 2, _ | 1, 0, _ | 1, 1, _ | 1, 2, _ => rfl
    | i + 2, k, _ =>
      rw [List.getElem?_eq_none (by change 8 ≤ _; omega),
        List.getElem?_eq_none (by change 8 ≤ _; omega)]
  obtain ⟨-, -, -, hsame, -⟩ := lossy_ignores_alpha r
  exact ⟨hs, by decide, (hsame s hs).job_eq .lossy⟩

end Quicklook.Raster
