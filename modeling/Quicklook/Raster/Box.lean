import Quicklook.Raster.Basic
import Quicklook.Binary.Nearest

/-!
# Sizes of renditions

The boxes that renditions are made to fill. A thumbnail has a fixed box. The box of an
overview keeps the shape of the picture: its longer edge is bounded by a side length, the
shorter one follows in proportion, and a picture within the bound keeps its size.
-/

namespace Quicklook

/-- The exact pixel size of a rendition. -/
structure Box where
  width : UInt32
  height : UInt32
deriving Repr, DecidableEq

namespace Box

/-- The box of every thumbnail. -/
def thumbnail : Box :=
  ⟨200, 200⟩

/-! ## §1 Overviews -/

/-- The bound that a side length sets: its whole pixels, at least one and at most what 32
    bits hold. A side that is not a number bounds like the smallest one. -/
def bound (side : Float) : UInt32 :=
  max 1 side.toUInt32

/-- An edge scaled by `target / reference` and rounded to whole pixels, at least one. -/
def proportional (edge target reference : UInt32) : UInt32 :=
  max 1 (UInt32.ofNatClamp
    (Binary.scale edge.toNat (Binary.ratio target.toNat reference.toNat)))

/-- The box of the overview of a picture. Of two equal edges the width counts as the longer. -/
def overview (width height : UInt32) (side : Float) : Box :=
  if height ≤ width then
    let w := min width (bound side)
    ⟨w, proportional height w width⟩
  else
    let h := min height (bound side)
    ⟨proportional width h height, h⟩

end Box

/-- The box of the overview of a raster. -/
def Raster.overviewBox (r : Raster) (side : Float) : Box :=
  Box.overview r.width r.height side

end Quicklook
