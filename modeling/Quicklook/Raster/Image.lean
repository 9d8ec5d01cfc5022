import Quicklook.Raster.Basic

/-!
# Images in other layouts

Pictures as other software hands them over: grey or coloured, with or without alpha, with 8
or 16 bits or a floating-point number to a sample. Each becomes a raster sample by sample,
and each raster is an image of the matching 8-bit layout.

An image may hold more samples than its pixels have. When samples are converted the surplus
is dropped; samples that are taken over as they are keep it, and then there is no raster.

Main statements: of an image without a surplus nothing is dropped (`rasterSamples_of_exact`),
and where samples are converted as many are left as the pixels have (`count_rasterSamples`).
-/

namespace Quicklook

/-! ## §1 Samples -/

/-- A 16-bit sample in 8 bits, to the nearest. -/
def sampleOfWord (v : UInt16) : UInt8 :=
  UInt8.ofNat ((v.toNat + 128) / 257)

/-- The byte nearest to a floating-point number of the 8-bit range, the larger one at a half. -/
def nearestByte (x : Float32) : UInt8 :=
  let below := x.toUInt8
  -- The difference is exact, so that a half is told from anything less.
  if x - below.toFloat32 < 0.5 then below else below + 1

/-- A floating-point sample in 8 bits: brought into the range from zero to one, spread over
    the 8-bit range and rounded to the nearest. What is neither negative nor below one counts as
    one, even if it is no number. -/
def sampleOfFloat (v : Float32) : UInt8 :=
  let inRange : Float32 := if v < 0 then 0 else if v < 1 then v else 1
  nearestByte (inRange * 255)

/-! ## §2 Images -/

/-- What the samples of a pixel stand for. -/
inductive Colour where
  | luma
  | lumaAlpha
  | rgb
  | rgba
deriving Repr, DecidableEq

namespace Colour

/-- Samples of a pixel. -/
def channels : Colour → Nat
  | .luma => 1
  | .lumaAlpha => 2
  | .rgb => 3
  | .rgba => 4

/-- Whether the last sample of a pixel is its alpha. -/
def hasAlpha : Colour → Bool
  | .lumaAlpha | .rgba => true
  | .luma | .rgb => false

/-- 8-bit samples spread out to colour: a grey sample stands for all three colours, and
    alpha stays where it is. -/
def spread : Colour → Bytes → Bytes
  | .luma, samples => samples.flatMap fun v => [v, v, v]
  | .lumaAlpha, samples =>
    samples.zipIdx.flatMap fun (v, i) => if i % 2 == 0 then [v, v, v] else [v]
  | .rgb, samples | .rgba, samples => samples

end Colour

/-- The samples of an image, by their kind. -/
inductive Samples where
  | bytes (colour : Colour) (samples : List UInt8)
  | words (colour : Colour) (samples : List UInt16)
  /-- A floating-point number to a sample; always in colour. -/
  | floats (alpha : Bool) (samples : List Float32)

namespace Samples

/-- What the samples of a pixel stand for. -/
def colour : Samples → Colour
  | .bytes c _ | .words c _ => c
  | .floats alpha _ => if alpha then .rgba else .rgb

/-- The number of samples. -/
def count : Samples → Nat
  | .bytes _ s => s.length
  | .words _ s => s.length
  | .floats _ s => s.length

/-- The samples in 8 bits. -/
def toBytes : Samples → Bytes
  | .bytes _ s => s
  | .words _ s => s.map sampleOfWord
  | .floats _ s => s.map sampleOfFloat

/-- The samples from the front, up to a number. -/
def take (n : Nat) : Samples → Samples
  | .bytes c s => .bytes c (s.take n)
  | .words c s => .words c (s.take n)
  | .floats alpha s => .floats alpha (s.take n)

/-- Whether the samples are laid out as a raster's: 8 bits each, and in colour. -/
def inRasterLayout : Samples → Bool
  | .bytes .rgb _ | .bytes .rgba _ => true
  | _ => false

/-- A cut leaves as many samples as there are, up to its number. -/
theorem count_take (n : Nat) (s : Samples) : (s.take n).count = min n s.count := by
  cases s <;> simp [take, count]

/-- A cut behind the last sample changes nothing. -/
theorem take_count (s : Samples) : s.take s.count = s := by
  cases s <;> simp [take, count]

end Samples

/-- A picture in any of the layouts. -/
structure Image where
  width : UInt32
  height : UInt32
  /-- The samples, row by row. -/
  samples : Samples

/-! ## §3 From and to rasters -/

namespace Image

/-- The number of samples that the pixels have. -/
def needed (i : Image) : Nat :=
  i.width.toNat * i.height.toNat * i.samples.colour.channels

/-- Whether there are samples for every pixel. Some may be left over. -/
def Complete (i : Image) : Prop :=
  i.needed ≤ i.samples.count

instance (i : Image) : Decidable i.Complete :=
  inferInstanceAs (Decidable (_ ≤ _))

/-- The samples that a raster is to be made of: all of them where they are laid out as a
    raster's, and elsewhere those of the pixels. -/
def rasterSamples (i : Image) : Samples :=
  if i.samples.inRasterLayout then i.samples else i.samples.take i.needed

/-- The image as a raster: four components with alpha, three without. Nothing, neither a raster nor
    an error, where the size of the raster would not fit into a word. -/
def toRaster? (i : Image) : Option (Except RasterError Raster) :=
  let colour := i.samples.colour
  Raster.make? i.width i.height (if colour.hasAlpha then 4 else 3)
    (colour.spread i.rasterSamples.toBytes)

/-- Without a surplus all samples are those of the pixels. -/
theorem rasterSamples_of_exact {i : Image} (h : i.samples.count = i.needed) :
    i.rasterSamples = i.samples := by
  rw [rasterSamples, ← h, Samples.take_count, ite_self]

/-- Where samples are converted, a complete image gives as many as its pixels have. -/
theorem count_rasterSamples {i : Image} (hi : i.Complete) (h : i.samples.inRasterLayout = false) :
    i.rasterSamples.count = i.needed := by
  rw [rasterSamples, h, if_neg Bool.false_ne_true, Samples.count_take]
  exact Nat.min_eq_left hi

end Image

/-- The raster as an 8-bit image. A buffer too small for the dimensions gives a black one. -/
def Raster.toImage (r : Raster) : Image :=
  let colour : Colour := if r.hasAlpha then .rgba else .rgb
  let needed := r.width.toNat * r.height.toNat * colour.channels
  { width := r.width
    height := r.height
    samples := .bytes colour
      (if needed ≤ r.pixels.length then r.pixels else List.replicate needed 0) }

end Quicklook
