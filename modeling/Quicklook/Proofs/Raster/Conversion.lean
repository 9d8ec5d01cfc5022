import Quicklook.Proofs.Raster.Pixels
import Quicklook.Proofs.Raster.Size

/-!
# Images and rasters

An image in any of the ten layouts becomes a raster, and every byte of the raster is one sample of
the same pixel in 8 bits: which one is a matter of the layout alone. A raster becomes an image in
its own layout, and from there the same raster again.

What an image may have too much is no part of any pixel. It is cut off where samples are
converted, but an image that is in the layout of a raster is taken over whole, and then a surplus
is an error.

* `Samples.byte?`: the samples of an image in 8 bits, by their places
* `Raster.toImage_eq`, `Raster.toRaster?_toImage`: from a raster to an image and back
* `Image.exists_toRaster?`, `Image.toRaster?_of_surplus`, `Image.toRaster?_of_empty`: the raster
  of an image, and the two errors that there may be instead
* `Image.toRaster_by_sample`: all of this together
-/

namespace Quicklook

/-! ## §1 Samples in 8 bits -/

/-- 8 bits are enough for the quotient. -/
theorem toNat_sampleOfWord (v : UInt16) : (sampleOfWord v).toNat = (v.toNat + 128) / 257 := by
  have hv := v.toNat_lt
  rw [sampleOfWord, UInt8.toNat_ofNat']
  omega

/-- What is outside of the range becomes one of its ends. -/
theorem sampleOfFloat_eq (v : Float32) :
    sampleOfFloat v = if v < 0 then 0 else if v < 1 then nearestByte (v * 255) else 255 := by
  rw [sampleOfFloat]
  -- Below, inside and above the range; a number that is none is taken as above it.
  by_cases hneg : v < 0
  · rw [if_pos hneg, if_pos hneg]
    decide +kernel
  · rw [if_neg hneg, if_neg hneg]
    by_cases hone : v < 1
    · rw [if_pos hone, if_pos hone]
    · rw [if_neg hone, if_neg hone]
      decide +kernel

namespace Samples

/-- The sample at a place, in 8 bits. -/
def byte? : Samples → Nat → Option UInt8
  | .bytes _ s, j => s[j]?
  | .words _ s, j => s[j]?.map sampleOfWord
  | .floats _ s, j => s[j]?.map sampleOfFloat

theorem getElem?_toBytes (s : Samples) (j : Nat) : s.toBytes[j]? = s.byte? j := by
  cases s with
  | bytes colour samples => rfl
  | words colour samples => exact List.getElem?_map
  | floats alpha samples => exact List.getElem?_map

theorem length_toBytes (s : Samples) : s.toBytes.length = s.count := by
  cases s with
  | bytes colour samples => rfl
  | words colour samples => exact List.length_map _
  | floats alpha samples => exact List.length_map _

/-- Cutting off samples does not change those before the cut. -/
theorem byte?_take {n j : Nat} (s : Samples) (h : j < n) : (s.take n).byte? j = s.byte? j := by
  cases s <;> simp [take, byte?, List.getElem?_take_of_lt h]

end Samples

theorem Colour.length_sources (colour : Colour) :
    colour.sources.length = if colour.hasAlpha then 4 else 3 := by
  cases colour <;> rfl

/-! ## §2 From rasters to images -/

namespace Raster

/-- The colours of a raster with and without alpha. -/
def colour (r : Raster) : Colour :=
  if r.hasAlpha then .rgba else .rgb

/-- The image of a raster has as many samples per pixel as the raster has components. -/
theorem channels_colour (r : Raster) : r.colour.channels = r.components.toNat := by
  rcases r.layout with hc | hc <;> simp [colour, hasAlpha, hc, Colour.channels]

theorem hasAlpha_colour (r : Raster) : r.colour.hasAlpha = r.hasAlpha := by
  rw [colour]
  cases r.hasAlpha <;> rfl

/-- A raster has enough samples, so that there is no need for a black image. -/
theorem toImage_eq (r : Raster) :
    r.toImage = ⟨r.width, r.height, .bytes r.colour r.pixels⟩ := by
  have henough : r.width.toNat * r.height.toNat * r.colour.channels ≤ r.pixels.length := by
    rw [r.channels_colour, r.length_pixels]
    exact Nat.le_refl _
  exact congrArg (fun samples => Image.mk r.width r.height (.bytes r.colour samples))
    (if_pos henough)

end Raster

/-! ## §3 From images to rasters -/

namespace Image

/-- Components of the raster. -/
def components (i : Image) : UInt8 :=
  if i.samples.colour.hasAlpha then 4 else 3

/-- Nothing is left over where the samples are taken over as they are. -/
def IsTight (i : Image) : Prop :=
  i.samples.inRasterLayout = true → i.samples.count = i.needed

/-- The raster shows the image: it has the same size, alpha if and only if the image has, and
    every byte is the sample of the same pixel that its layout has for it, in 8 bits. -/
structure ShownBy (i : Image) (r : Raster) : Prop where
  width_eq : r.width = i.width
  height_eq : r.height = i.height
  alpha : r.components = 4 ↔ i.samples.colour.hasAlpha = true
  size : r.pixels.length = r.components.toNat * (i.width.toNat * i.height.toNat)
  bytes : ∀ p < i.width.toNat * i.height.toNat, ∀ k j,
    i.samples.colour.sources[k]? = some j →
      ∃ v, i.samples.byte? (i.samples.colour.channels * p + j) = some v ∧
        r.pixels[r.components.toNat * p + k]? = some v

variable {i : Image}

theorem components_eq (i : Image) : i.components = 3 ∨ i.components = 4 := by
  rw [components]
  split
  · exact .inr rfl
  · exact .inl rfl

theorem components_eq_four_iff (i : Image) :
    i.components = 4 ↔ i.samples.colour.hasAlpha = true := by
  rw [components]
  cases i.samples.colour.hasAlpha <;> decide

theorem toNat_components (i : Image) :
    i.components.toNat = i.samples.colour.sources.length := by
  rw [components, Colour.length_sources]
  cases i.samples.colour.hasAlpha <;> rfl

theorem toRaster?_eq (i : Image) :
    i.toRaster? = Raster.make? i.width i.height i.components
      (i.samples.colour.spread i.rasterSamples.toBytes) :=
  rfl

theorem needed_eq (i : Image) :
    i.needed = i.samples.colour.channels * (i.width.toNat * i.height.toNat) :=
  Nat.mul_comm _ _

/-- What a raster is made of are the samples of the pixels, whether any are cut off or not. -/
theorem count_rasterSamples_of_isTight (hi : i.Complete) (ht : i.IsTight) :
    i.rasterSamples.count = i.needed := by
  cases hlayout : i.samples.inRasterLayout with
  | true => rw [rasterSamples_of_exact (ht hlayout), ht hlayout]
  | false => exact count_rasterSamples hi hlayout

/-- The samples of the pixels are never cut off. -/
theorem byte?_rasterSamples {j : Nat} (h : j < i.needed) :
    i.rasterSamples.byte? j = i.samples.byte? j := by
  rw [rasterSamples]
  split
  · rfl
  · exact Samples.byte?_take _ h

/-- An image without a surplus has a raster, and that shows it. -/
theorem exists_toRaster? (hi : i.Complete) (hw : i.width ≠ 0) (hh : i.height ≠ 0)
    (hfits : exactCount i.width i.height i.components < 2 ^ 64) (ht : i.IsTight) :
    ∃ r, i.toRaster? = some (.ok r) ∧ i.ShownBy r := by
  have hspread := i.samples.colour.pixelWise_spread
  have hcount : i.rasterSamples.toBytes.length =
      i.samples.colour.channels * (i.width.toNat * i.height.toNat) := by
    rw [Samples.length_toBytes, count_rasterSamples_of_isTight hi ht, needed_eq]
  have hsize := hspread.length_eq hcount
  rw [← i.toNat_components] at hsize
  have hexact : (i.samples.colour.spread i.rasterSamples.toBytes).length =
      exactCount i.width i.height i.components := hsize.trans (Nat.mul_comm _ _)
  -- So the samples fill a raster of the size exactly.
  have hfilled := Raster.map_byteCount?_iff.2 ⟨hexact, hfits⟩
  refine ⟨⟨i.width, i.height, i.components, _, ⟨hw, hh⟩, i.components_eq, hfilled⟩, ?_, ?_⟩
  · rw [toRaster?_eq]
    exact Raster.make?_of_filled ⟨hw, hh⟩ i.components_eq hfilled
  -- Each byte is found where the layout has its sample, in the same pixel.
  · refine ⟨rfl, rfl, i.components_eq_four_iff, hsize, fun p hp k j hk => ?_⟩
    have hj : j < i.samples.colour.channels := hspread.inPixel j (List.mem_of_getElem? hk)
    -- The sample is one of those of the pixels, because a later pixel would begin behind it.
    have hplace : i.samples.colour.channels * p + j < i.needed := by
      calc i.samples.colour.channels * p + j
          < i.samples.colour.channels * (p + 1) := by
            rw [Nat.mul_succ]
            exact Nat.add_lt_add_left hj _
        _ ≤ i.samples.colour.channels * (i.width.toNat * i.height.toNat) :=
            Nat.mul_le_mul_left _ hp
        _ = i.needed := i.needed_eq.symm
    have hbyte := hspread.getElem?_eq hcount hp hk
    rw [Samples.getElem?_toBytes, byte?_rasterSamples hplace] at hbyte
    have hlt : i.samples.colour.channels * p + j < i.rasterSamples.toBytes.length := by
      rw [hcount, ← needed_eq]
      exact hplace
    have hsome := List.getElem?_eq_getElem hlt
    rw [Samples.getElem?_toBytes, byte?_rasterSamples hplace] at hsome
    refine ⟨_, hsome, ?_⟩
    rw [← hsome, ← hbyte, toNat_components]

/-- An image that is in the layout of a raster is taken over as it is. -/
theorem toRaster?_of_inRasterLayout (h : i.samples.inRasterLayout = true) :
    i.toRaster? = Raster.make? i.width i.height i.components i.samples.toBytes ∧
      i.components.toNat = i.samples.colour.channels := by
  obtain ⟨width, height, samples⟩ := i
  cases samples with
  | bytes colour samples =>
    cases colour with
    | luma | lumaAlpha => cases h
    | rgb | rgba => exact ⟨rfl, rfl⟩
  | words colour samples => cases h
  | floats alpha samples => cases h

/-- A surplus that would be taken over is refused. -/
theorem toRaster?_of_surplus (hw : i.width ≠ 0) (hh : i.height ≠ 0)
    (hfits : exactCount i.width i.height i.components < 2 ^ 64) (ht : ¬ i.IsTight) :
    ∃ n : UInt64, n.toNat = exactCount i.width i.height i.components ∧
      i.toRaster? = some (.error (.bufferSize n i.samples.count)) := by
  obtain ⟨hlayout, hcount⟩ := Classical.not_imp.1 ht
  obtain ⟨hmake, hchannels⟩ := toRaster?_of_inRasterLayout hlayout
  have hsize : i.samples.toBytes.length ≠ exactCount i.width i.height i.components := by
    rw [Samples.length_toBytes, exactCount, hchannels]
    exact hcount
  -- The size fits into a word, so the error tells it as it is.
  have hword : (UInt64.ofNat (exactCount i.width i.height i.components)).toNat =
      exactCount i.width i.height i.components := UInt64.toNat_ofNat_of_lt' hfits
  refine ⟨_, hword, ?_⟩
  rw [hmake, Raster.make?_of_length_ne ⟨hw, hh⟩ i.components_eq hword hsize,
    Samples.length_toBytes]

/-- An image without pixels has no raster, whatever its samples. -/
theorem toRaster?_of_empty (h : i.width = 0 ∨ i.height = 0) :
    i.toRaster? = some (.error (.emptyDimensions i.width i.height)) :=
  Raster.make?_of_empty h

end Image

/-- A raster comes back from its image. -/
theorem Raster.toRaster?_toImage (r : Raster) : r.toImage.toRaster? = some (.ok r) := by
  -- The image is in the layout that it came from.
  have hlayout : r.toImage.samples.inRasterLayout = true := by
    rw [r.toImage_eq, colour]
    cases r.hasAlpha <;> rfl
  have hcomponents : r.toImage.components = r.components := by
    rw [r.toImage_eq, Image.components, Samples.colour, r.hasAlpha_colour]
    rcases r.layout with hc | hc <;> simp [hasAlpha, hc]
  rw [(Image.toRaster?_of_inRasterLayout hlayout).1, hcomponents, r.toImage_eq]
  exact make?_self r

/-! ## §4 Faithful conversion -/

/-- **Rasters and images are converted faithfully.** A raster becomes an image with its own
    samples, never a black one, and comes back from it unchanged. Every image with pixels becomes
    a raster that shows it, byte by byte, unless it is in the layout of a raster and has more
    samples than its pixels; such an image is refused with the number of samples that there should
    be and that of those there are. An image without pixels is refused with its dimensions. A word
    becomes the byte nearest to its 257th part, and a floating-point number that nearest to its
    255-fold, or an end of the range if it is outside.

    An image has at least the samples of its pixels, and the size of its raster fits into a word,
    as the size of every buffer in memory does. -/
theorem Image.toRaster_by_sample :
    (∀ r : Raster, r.toImage = ⟨r.width, r.height, .bytes r.colour r.pixels⟩ ∧
      r.toImage.toRaster? = some (.ok r)) ∧
    (∀ i : Image, i.Complete → i.width ≠ 0 → i.height ≠ 0 →
      exactCount i.width i.height i.components < 2 ^ 64 →
      (i.IsTight → ∃ r, i.toRaster? = some (.ok r) ∧ i.ShownBy r) ∧
      (¬ i.IsTight → ∃ n : UInt64, n.toNat = exactCount i.width i.height i.components ∧
        i.toRaster? = some (.error (.bufferSize n i.samples.count)))) ∧
    (∀ i : Image, i.width = 0 ∨ i.height = 0 →
      i.toRaster? = some (.error (.emptyDimensions i.width i.height))) ∧
    (∀ v : UInt16, (sampleOfWord v).toNat = (v.toNat + 128) / 257) ∧
    ∀ v : Float32, sampleOfFloat v =
      if v < 0 then 0 else if v < 1 then nearestByte (v * 255) else 255 := by
  refine ⟨fun r => ⟨r.toImage_eq, r.toRaster?_toImage⟩, fun i hi hw hh hfits => ?_,
    fun i h => toRaster?_of_empty h, toNat_sampleOfWord, sampleOfFloat_eq⟩
  exact ⟨exists_toRaster? hi hw hh hfits, toRaster?_of_surplus hw hh hfits⟩

/-- Two grey pixels with alpha, in words: the second one becomes grey of 2 without any alpha. A
    raster comes back, and there is none without pixels. -/
theorem Image.grey_words_become_bytes :
    let i : Image := ⟨2, 1, .words .lumaAlpha [0, 65535, 386, 128]⟩
    let s : Raster := ⟨1, 1, 4, [1, 2, 3, 4], by decide, by decide, by decide⟩
    s.toImage.toRaster? = some (.ok s) ∧
      i.Complete ∧ i.width ≠ 0 ∧ i.height ≠ 0 ∧
      exactCount i.width i.height i.components < 2 ^ 64 ∧ i.IsTight ∧
      (∃ r, i.toRaster? = some (.ok r) ∧ r.components = 4 ∧
        r.pixels[4]? = some 2 ∧ r.pixels[6]? = some 2 ∧ r.pixels[7]? = some 0) ∧
      Image.toRaster? ⟨0, 7, .floats true []⟩ = some (.error (.emptyDimensions 0 7)) := by
  intro i s
  have hi : i.Complete := by decide
  have hw : i.width ≠ 0 := by decide
  have hh : i.height ≠ 0 := by decide
  have hfits : exactCount i.width i.height i.components < 2 ^ 64 := by decide
  have ht : i.IsTight := fun h => nomatch h
  obtain ⟨hraster, himage, hempty, -, -⟩ := toRaster_by_sample
  obtain ⟨r, hr, hshown⟩ := (himage i hi hw hh hfits).1 ht
  have hc : r.components = 4 := hshown.alpha.2 rfl
  -- Red, blue and alpha of the second pixel.
  obtain ⟨v₀, hv₀, hr₀⟩ := hshown.bytes 1 (by decide) 0 0 rfl
  obtain ⟨v₂, hv₂, hr₂⟩ := hshown.bytes 1 (by decide) 2 0 rfl
  obtain ⟨v₃, hv₃, hr₃⟩ := hshown.bytes 1 (by decide) 3 1 rfl
  obtain rfl := Option.some.inj hv₀
  obtain rfl := Option.some.inj hv₂
  obtain rfl := Option.some.inj hv₃
  rw [hc] at hr₀ hr₂ hr₃
  exact ⟨(hraster s).2, hi, hw, hh, hfits, ht, ⟨r, hr, hc, hr₀, hr₂, hr₃⟩,
    hempty _ (.inl rfl)⟩

/-- It is not true that every image with pixels has a raster: one red, green and blue pixel with a
    fourth sample has none. -/
theorem Image.not_forall_exists_toRaster :
    ¬ ∀ i : Image, i.Complete → i.width ≠ 0 → i.height ≠ 0 →
      exactCount i.width i.height i.components < 2 ^ 64 → ∃ r, i.toRaster? = some (.ok r) := by
  intro h
  have hrefused : toRaster? ⟨1, 1, .bytes .rgb [1, 2, 3, 4]⟩ =
      some (.error (.bufferSize 3 4)) := rfl
  obtain ⟨r, hr⟩ := h ⟨1, 1, .bytes .rgb [1, 2, 3, 4]⟩ (by decide) (by decide) (by decide)
    (by decide)
  rw [hrefused] at hr
  cases hr

end Quicklook
