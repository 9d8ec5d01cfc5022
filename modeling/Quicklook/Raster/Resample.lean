import Quicklook.Raster.Box

/-!
# Filling a box

How a picture is brought to the exact size of a box without changing its shape: it is
resized until it covers the box, and the part around its centre is kept. The plan of the two
steps is exact; the samples are interpolated with a three-lobed Lanczos kernel and computed
only where they are looked at.
-/

namespace Quicklook

/-! ## §1 The plan -/

/-- A resize followed by a crop. -/
structure FillPlan where
  /-- Pixels in a row after the resize. -/
  width : Nat
  /-- Rows after the resize. -/
  height : Nat
  /-- Columns cut off on the left. -/
  left : Nat
  /-- Rows cut off at the top. -/
  top : Nat
deriving Repr, DecidableEq

namespace FillPlan

/-- The factor of a resize that covers the box: the larger of the two edge ratios. -/
def factor (width height : UInt32) (box : Box) : Rat :=
  let across := Binary.ratio box.width.toNat width.toNat
  let down := Binary.ratio box.height.toNat height.toNat
  if across < down then down else across

/-- The plan that fills `box` with a picture of the given size. What exceeds the box is cut
    off in equal parts, an odd pixel at the far side. -/
def make (width height : UInt32) (box : Box) : FillPlan :=
  let f := factor width height box
  let w := max 1 (Binary.scale width.toNat f)
  let h := max 1 (Binary.scale height.toNat f)
  { width := w
    height := h
    left := (w - box.width.toNat) / 2
    top := (h - box.height.toNat) / 2 }

/-- Pixels in a row after the crop: as many as the box has, as far as the picture reaches. -/
def croppedWidth (p : FillPlan) (box : Box) : Nat :=
  min box.width.toNat (p.width - p.left)

/-- Rows after the crop. -/
def croppedHeight (p : FillPlan) (box : Box) : Nat :=
  min box.height.toNat (p.height - p.top)

/-- Whether the crop has exactly the size of the box. -/
def Fills (p : FillPlan) (box : Box) : Prop :=
  p.croppedWidth box = box.width.toNat ∧ p.croppedHeight box = box.height.toNat

instance (p : FillPlan) (box : Box) : Decidable (p.Fills box) :=
  inferInstanceAs (Decidable (_ ∧ _))

end FillPlan

/-! ## §2 The kernel -/

namespace Lanczos

/-- `sin(πt) / (πt)`, and one at zero. -/
def sinc (t : Float) : Float :=
  let a := t * 3.141592653589793
  if t == 0 then 1 else a.sin / a

/-- The kernel with three lobes. -/
def kernel (t : Float) : Float :=
  if t.abs < 3 then sinc t * sinc (t / 3) else 0

/-- The source pixels that output pixel `out` draws on when an edge of `size` pixels becomes
    one of `target` pixels, each with its share; the shares add up to one. -/
def taps (size target out : Nat) : List (Nat × Float) :=
  let ratio := size.toFloat / target.toFloat
  let spread := max ratio 1
  let centre := (out.toFloat + 0.5) * ratio
  -- The kernel reaches three lobes to either side, and never beyond the edge.
  let first := min (centre - 3 * spread).floor.toUInt64.toNat (size - 1)
  let last := max (first + 1) (min (centre + 3 * spread).ceil.toUInt64.toNat size)
  let weighed := (List.range' first (last - first)).map fun i =>
    (i, kernel ((i.toFloat - (centre - 0.5)) / spread))
  let total := weighed.foldl (fun sum (_, w) => sum + w) 0
  weighed.map fun (i, w) => (i, w / total)

end Lanczos

/-! ## §3 The picture in the box -/

/-- A picture in red, green and blue whose samples are computed on demand. -/
structure Picture where
  width : Nat
  height : Nat
  /-- The sample at a column and a row: 0 for red, 1 for green, 2 for blue. -/
  sample : Nat → Nat → Nat → UInt8

namespace Picture

/-- The three samples of a pixel; nothing outside of the picture. -/
def pixel? (p : Picture) (x y : Nat) : Option (List UInt8) :=
  if x < p.width ∧ y < p.height then some [p.sample x y 0, p.sample x y 1, p.sample x y 2]
  else none

/-- A raster as it is, without its alpha. -/
def ofRaster (r : Raster) : Picture :=
  let samples := r.pixels.toArray
  let row := r.width.toNat
  let step := r.components.toNat
  { width := row
    height := r.height.toNat
    sample := fun x y k => samples.getD ((y * row + x) * step + k) 0 }

/-- A raster resized and cropped by a plan, without its alpha. -/
def filled (r : Raster) (box : Box) (plan : FillPlan) : Picture :=
  let source := ofRaster r
  { width := plan.croppedWidth box
    height := plan.croppedHeight box
    sample := fun x y k =>
      -- Columns and rows are weighed on their own, in the picture before the crop.
      let columns := Lanczos.taps source.width plan.width (x + plan.left)
      let rows := Lanczos.taps source.height plan.height (y + plan.top)
      let column (i : Nat) : Float :=
        rows.foldl (fun sum (j, share) => sum + share * (source.sample i j k).toFloat) 0
      let sum : Float := columns.foldl (fun sum (i, share) => sum + share * column i) 0
      (sum + 0.5).toUInt8 }

end Picture

end Quicklook
