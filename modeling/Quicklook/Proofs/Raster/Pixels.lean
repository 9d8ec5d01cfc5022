import Quicklook.Raster.Image

/-!
# Samples of one pixel

Samples are dropped and repeated by their places, counted from the beginning of a picture. All the
same every pixel is treated alike and on its own: which bytes come out for it depends on nothing
but its own samples, and where they stand depends on nothing but the number of pixels before it.

* `PixelWise`: a change of samples that works on one pixel after the other
* `PixelWise.length_eq`, `PixelWise.getElem?_eq`: the bytes that come out of it, by their places
* `pixelWise_dropAlpha`, `Colour.pixelWise_spread`: leaving out alpha, and spreading out grey
-/

namespace Quicklook

/-! ## §1 Changes of samples -/

/-- What becomes of a pixel: its samples with the given places, in this order. -/
def picked (sources : List Nat) (pixel : Bytes) : Bytes :=
  sources.map fun j => pixel.getD j 0

/-- A change of samples that takes one pixel of `c` samples after the other and makes of it the
    samples whose places in the pixel are listed. -/
structure PixelWise (f : Bytes → Bytes) (c : Nat) (sources : List Nat) : Prop where
  nil : f [] = []
  step : ∀ pixel rest, pixel.length = c → f (pixel ++ rest) = picked sources pixel ++ f rest
  inPixel : ∀ j ∈ sources, j < c

namespace PixelWise

variable {f : Bytes → Bytes} {c : Nat} {sources : List Nat} {samples : Bytes} {m : Nat}

/-- The samples of `m + 1` pixels are those of the first one and those of `m` more. -/
private theorem exists_split (h : samples.length = c * (m + 1)) :
    ∃ pixel rest, samples = pixel ++ rest ∧ pixel.length = c ∧ rest.length = c * m := by
  refine ⟨samples.take c, samples.drop c, (List.take_append_drop c samples).symm, ?_, ?_⟩
  · rw [List.length_take, h, Nat.mul_succ]
    omega
  · rw [List.length_drop, h, Nat.mul_succ]
    omega

theorem length_eq (hf : PixelWise f c sources) (h : samples.length = c * m) :
    (f samples).length = sources.length * m := by
  -- By induction on the number of pixels; the first of them is split off.
  induction m generalizing samples with
  | zero =>
    obtain rfl := List.eq_nil_of_length_eq_zero h
    rw [hf.nil]
    rfl
  | succ m ih =>
    obtain ⟨pixel, rest, rfl, hpixel, hrest⟩ := exists_split h
    rw [hf.step pixel rest hpixel, List.length_append, ih hrest, picked, List.length_map,
      Nat.mul_succ, Nat.add_comm]

/-- What comes out for pixel `p` at place `k` is the sample of this pixel that is listed there. -/
theorem getElem?_eq (hf : PixelWise f c sources) (h : samples.length = c * m) {p k j : Nat}
    (hp : p < m) (hk : sources[k]? = some j) :
    (f samples)[sources.length * p + k]? = samples[c * p + j]? := by
  have hklt : k < sources.length := (List.getElem?_eq_some_iff.1 hk).1
  -- By induction on the number of pixels, each time with another pixel in front.
  induction m generalizing samples p with
  | zero => exact absurd hp (Nat.not_lt_zero p)
  | succ m ih =>
    obtain ⟨pixel, rest, rfl, hpixel, hrest⟩ := exists_split h
    have hj : j < pixel.length := hpixel ▸ hf.inPixel j (List.mem_of_getElem? hk)
    have hpicked : (picked sources pixel).length = sources.length := List.length_map _
    rw [hf.step pixel rest hpixel]
    cases p with
    | zero =>
      rw [Nat.mul_zero, Nat.zero_add, Nat.mul_zero, Nat.zero_add,
        List.getElem?_append_left (hpicked ▸ hklt), List.getElem?_append_left hj, picked,
        List.getElem?_map, hk, Option.map_some, List.getD_eq_getElem?_getD,
        List.getElem?_eq_getElem hj, Option.getD_some]
    -- A later pixel is one of the rest, and the first one goes away on both sides.
    | succ p =>
      have hout : sources.length * (p + 1) + k =
          (picked sources pixel).length + (sources.length * p + k) := by
        rw [hpicked, Nat.mul_succ]
        omega
      have hin : c * (p + 1) + j = pixel.length + (c * p + j) := by
        rw [hpixel, Nat.mul_succ]
        omega
      rw [hout, hin, List.getElem?_append_right (Nat.le_add_right _ _),
        List.getElem?_append_right (Nat.le_add_right _ _), Nat.add_sub_cancel_left,
        Nat.add_sub_cancel_left]
      exact ih hrest (Nat.lt_of_succ_lt_succ hp)

end PixelWise

/-! ## §2 Places modulo the samples of a pixel -/

/-- If the place counts only modulo the number of samples in front, these samples and the rest can
    be treated one after the other. -/
theorem flatMap_zipIdx_append {g : UInt8 × Nat → Bytes} {c : Nat}
    (hg : ∀ v i, g (v, c + i) = g (v, i)) {pixel : Bytes} (hc : pixel.length = c) (rest : Bytes) :
    (pixel ++ rest).zipIdx.flatMap g = pixel.zipIdx.flatMap g ++ rest.zipIdx.flatMap g := by
  have hrest : (rest.zipIdx c).flatMap g = rest.zipIdx.flatMap g := by
    rw [List.zipIdx_eq_map_add, List.flatMap_map]
    simp only [hg]
  rw [List.zipIdx_append, List.flatMap_append, Nat.zero_add, hc, hrest]

/-- A filter is the same with one or no sample for each. -/
theorem map_filter_eq_flatMap (p : UInt8 × Nat → Bool) (samples : List (UInt8 × Nat)) :
    (samples.filter p).map (·.1) = samples.flatMap fun s => if p s then [s.1] else [] := by
  induction samples with
  | nil => rfl
  | cons s rest ih =>
    rw [List.flatMap_cons, ← ih]
    by_cases hs : p s <;> simp [hs]

/-- The samples without every fourth one. -/
def dropAlpha (samples : Bytes) : Bytes :=
  (samples.zipIdx.filter fun (_, i) => i % 4 != 3).map (·.1)

/-- What is left of a pixel is its red, green and blue. -/
theorem pixelWise_dropAlpha : PixelWise dropAlpha 4 [0, 1, 2] where
  nil := rfl
  step pixel rest hpixel := by
    match pixel, hpixel with
    | [r, g, b, a], _ =>
      simp only [dropAlpha, map_filter_eq_flatMap]
      -- Four samples further on every place is the same modulo four.
      rw [flatMap_zipIdx_append (c := 4) (fun v i => by rw [Nat.add_mod_left]) rfl]
      rfl
  inPixel := by decide

namespace Colour

/-- The places in a pixel whose samples make up a pixel of the raster: a grey sample stands for
    red, green and blue, and alpha comes last. -/
def sources : Colour → List Nat
  | .luma => [0, 0, 0]
  | .lumaAlpha => [0, 0, 0, 1]
  | .rgb => [0, 1, 2]
  | .rgba => [0, 1, 2, 3]

theorem pixelWise_spread (colour : Colour) :
    PixelWise colour.spread colour.channels colour.sources where
  nil := by cases colour <;> rfl
  step pixel rest hpixel := by
    cases colour with
    | luma =>
      match pixel, hpixel with
      | [v], _ => rfl
    | lumaAlpha =>
      match pixel, hpixel with
      | [v, a], _ =>
        simp only [spread]
        rw [flatMap_zipIdx_append (c := 2) (fun v i => by rw [Nat.add_mod_left]) rfl]
        rfl
    -- In colour nothing changes.
    | rgb =>
      match pixel, hpixel with
      | [r, g, b], _ => rfl
    | rgba =>
      match pixel, hpixel with
      | [r, g, b, a], _ => rfl
  inPixel := by cases colour <;> decide

end Colour

end Quicklook
