import Quicklook.Binary.Word
import Quicklook.Bytes

/-!
# Rasters

A decoded picture: interleaved 8-bit samples, three or four to a pixel. The size of a buffer is a
64-bit word, and so is the size that a raster should have. It is a product of three factors, and
where that does not fit into a word the work breaks off: there is neither a raster nor an error.

Main statements: the size is the exact product or nothing (`byteCount?_eq_some_iff`,
`byteCount?_eq_none_iff`), there are three ways for an attempt to end (`make?_cases`), and a raster
is made exactly of dimensions that are not zero, three or four components, and as many bytes as the
product says (`make?_eq_ok_iff`).
-/

namespace Quicklook

/-! ## §1 Sizes of buffers -/

/-- The exact number of bytes of a picture. -/
def exactCount (width height : UInt32) (components : UInt8) : Nat :=
  width.toNat * height.toNat * components.toNat

/-- The number of bytes of a picture as a 64-bit word, by two products; nothing if it does not
    fit into one. -/
def byteCount? (width height : UInt32) (components : UInt8) : Option UInt64 := do
  let area ← Binary.product? width.toUInt64 height.toUInt64
  Binary.product? area components.toUInt64

/-- The number of pixels always fits into a word. -/
theorem product?_edges (width height : UInt32) :
    ∃ area, Binary.product? width.toUInt64 height.toUInt64 = some area ∧
      area.toNat = width.toNat * height.toNat := by
  have hlt : width.toNat * height.toNat < 2 ^ 32 * 2 ^ 32 :=
    Nat.mul_lt_mul'' width.toNat_lt height.toNat_lt
  have harea : Binary.product? width.toUInt64 height.toUInt64 =
      some (width.toUInt64 * height.toUInt64) := if_pos hlt
  exact ⟨_, harea, Binary.product?_eq_some_iff.1 harea⟩

/-- A size that is a word is the exact one. -/
theorem byteCount?_eq_some_iff {width height : UInt32} {components : UInt8} {n : UInt64} :
    byteCount? width height components = some n ↔ n.toNat = exactCount width height components := by
  obtain ⟨area, harea, hexact⟩ := product?_edges width height
  rw [byteCount?, harea, exactCount, ← hexact]
  exact Binary.product?_eq_some_iff

/-- Only the components can make a size too large. -/
theorem byteCount?_eq_none_iff {width height : UInt32} {components : UInt8} :
    byteCount? width height components = none ↔
      UInt64.size ≤ exactCount width height components := by
  obtain ⟨area, harea, hexact⟩ := product?_edges width height
  rw [byteCount?, harea, exactCount, ← hexact]
  exact Binary.product?_eq_none_iff

/-! ## §2 Rasters and what keeps one from being made -/

/-- A decoded picture with interleaved samples. -/
structure Raster where
  width : UInt32
  height : UInt32
  /-- Samples of a pixel: red, green and blue, or these and alpha. -/
  components : UInt8
  /-- The samples, row by row. -/
  pixels : Bytes
  nonempty : width ≠ 0 ∧ height ≠ 0
  layout : components = 3 ∨ components = 4
  /-- The size of the samples is a word, and there are as many of them. -/
  filled : (byteCount? width height components).map UInt64.toNat = some pixels.length
deriving DecidableEq

/-- What keeps a raster from being made. -/
inductive RasterError where
  | emptyDimensions (width height : UInt32)
  | unsupportedComponents (components : UInt8)
  | bufferSize (expected : UInt64) (actual : Nat)
deriving Repr, DecidableEq

/-- The text of a raster error. -/
def RasterError.message : RasterError → String
  | .emptyDimensions w h => s!"raster dimensions must be non-zero, got {w}x{h}"
  | .unsupportedComponents c => s!"unsupported component count {c} (expected 3 or 4)"
  | .bufferSize expected actual =>
    s!"pixel buffer holds {actual} bytes, expected {expected}"

namespace Raster

/-! ## §3 Making a raster -/

/-- The raster with the given dimensions and samples. The dimensions are looked at first,
    then the components, then the size of the buffer. Nothing, neither a raster nor an error,
    where the size does not fit into a word: the product breaks the work off. -/
def make? (width height : UInt32) (components : UInt8) (pixels : Bytes) :
    Option (Except RasterError Raster) :=
  if hd : width ≠ 0 ∧ height ≠ 0 then
    if hc : components = 3 ∨ components = 4 then
      if hp : (byteCount? width height components).map UInt64.toNat = some pixels.length then
        some (.ok ⟨width, height, components, pixels, hd, hc, hp⟩)
      else
        (byteCount? width height components).map fun expected =>
          .error (.bufferSize expected pixels.length)
    else some (.error (.unsupportedComponents components))
  else some (.error (.emptyDimensions width height))

variable {width height : UInt32} {components : UInt8} {pixels : Bytes}

/-! The five ways in which the making ends, in the order of the tests. -/

theorem make?_of_empty (h : width = 0 ∨ height = 0) :
    make? width height components pixels = some (.error (.emptyDimensions width height)) :=
  dif_neg fun ⟨hw, hh⟩ => h.elim hw hh

theorem make?_of_unsupported (hd : width ≠ 0 ∧ height ≠ 0)
    (hc : ¬ (components = 3 ∨ components = 4)) :
    make? width height components pixels = some (.error (.unsupportedComponents components)) := by
  rw [make?, dif_pos hd, dif_neg hc]

theorem make?_of_too_large (hd : width ≠ 0 ∧ height ≠ 0) (hc : components = 3 ∨ components = 4)
    (h : UInt64.size ≤ exactCount width height components) :
    make? width height components pixels = none := by
  have hnone := byteCount?_eq_none_iff.2 h
  have hne : (byteCount? width height components).map UInt64.toNat ≠ some pixels.length := by
    rw [hnone]
    exact nofun
  rw [make?, dif_pos hd, dif_pos hc, dif_neg hne, hnone]
  rfl

theorem make?_of_length_ne {n : UInt64} (hd : width ≠ 0 ∧ height ≠ 0)
    (hc : components = 3 ∨ components = 4) (hn : n.toNat = exactCount width height components)
    (hp : pixels.length ≠ exactCount width height components) :
    make? width height components pixels = some (.error (.bufferSize n pixels.length)) := by
  have hsome := byteCount?_eq_some_iff.2 hn
  have hne : (byteCount? width height components).map UInt64.toNat ≠ some pixels.length := by
    rw [hsome, Option.map_some, hn]
    exact fun heq => hp (Option.some.inj heq).symm
  rw [make?, dif_pos hd, dif_pos hc, dif_neg hne, hsome]
  rfl

theorem make?_of_filled (hd : width ≠ 0 ∧ height ≠ 0) (hc : components = 3 ∨ components = 4)
    (hp : (byteCount? width height components).map UInt64.toNat = some pixels.length) :
    make? width height components pixels =
      some (.ok ⟨width, height, components, pixels, hd, hc, hp⟩) := by
  rw [make?, dif_pos hd, dif_pos hc, dif_pos hp]

/-- A buffer has the size of a raster if it has the exact one and this fits into a word. -/
theorem map_byteCount?_iff :
    (byteCount? width height components).map UInt64.toNat = some pixels.length ↔
      pixels.length = exactCount width height components ∧
        exactCount width height components < UInt64.size := by
  rw [Option.map_eq_some_iff]
  constructor
  · rintro ⟨n, hn, hlength⟩
    rw [← byteCount?_eq_some_iff.1 hn]
    exact ⟨hlength.symm, n.toNat_lt⟩
  · rintro ⟨hlength, hlt⟩
    have hn : (UInt64.ofNat pixels.length).toNat = pixels.length :=
      UInt64.toNat_ofNat_of_lt' (hlength ▸ hlt)
    exact ⟨_, byteCount?_eq_some_iff.2 (hn.trans hlength), hn⟩

/-- An attempt that gives no error has passed the tests of dimensions and components. Then the size
    either does not fit into a word, or it is met and the raster has the arguments for its parts. -/
theorem make?_cases (width height : UInt32) (components : UInt8) (pixels : Bytes) :
    (∃ e, make? width height components pixels = some (.error e)) ∨
      ∃ (hd : width ≠ 0 ∧ height ≠ 0) (hc : components = 3 ∨ components = 4),
        (UInt64.size ≤ exactCount width height components ∧
            make? width height components pixels = none) ∨
          ∃ hp, make? width height components pixels =
            some (.ok ⟨width, height, components, pixels, hd, hc, hp⟩) := by
  by_cases hempty : width = 0 ∨ height = 0
  case pos => exact .inl ⟨_, make?_of_empty hempty⟩
  have hd : width ≠ 0 ∧ height ≠ 0 := not_or.1 hempty
  by_cases hc : components = 3 ∨ components = 4
  case neg => exact .inl ⟨_, make?_of_unsupported hd hc⟩
  by_cases hlt : exactCount width height components < UInt64.size
  case neg =>
    have hsize := Nat.le_of_not_lt hlt
    exact .inr ⟨hd, hc, .inl ⟨hsize, make?_of_too_large hd hc hsize⟩⟩
  by_cases hlength : pixels.length = exactCount width height components
  -- The error tells the size, so here it has to be a word.
  case neg =>
    exact .inl ⟨_, make?_of_length_ne hd hc (UInt64.toNat_ofNat_of_lt' hlt) hlength⟩
  have hp := map_byteCount?_iff.2 ⟨hlength, hlt⟩
  exact .inr ⟨hd, hc, .inr ⟨hp, make?_of_filled hd hc hp⟩⟩

/-- When a raster is made, and that it holds what it was made of. -/
theorem make?_eq_ok_iff {r : Raster} :
    make? width height components pixels = some (.ok r) ↔
      (width ≠ 0 ∧ height ≠ 0) ∧ (components = 3 ∨ components = 4) ∧
      pixels.length = exactCount width height components ∧
      exactCount width height components < UInt64.size ∧
      r.width = width ∧ r.height = height ∧ r.components = components ∧ r.pixels = pixels := by
  constructor
  · intro h
    obtain ⟨e, herror⟩ | ⟨hd, hc, ⟨-, hnone⟩ | ⟨hp, hok⟩⟩ :=
      make?_cases width height components pixels
    · cases h.symm.trans herror
    · cases h.symm.trans hnone
    · cases h.symm.trans hok
      obtain ⟨hlength, hlt⟩ := map_byteCount?_iff.1 hp
      exact ⟨hd, hc, hlength, hlt, rfl, rfl, rfl, rfl⟩
  · rintro ⟨hd, hc, hlength, hlt, rfl, rfl, rfl, rfl⟩
    exact make?_of_filled hd hc (map_byteCount?_iff.2 ⟨hlength, hlt⟩)

/-- The size of a raster is exact, and it fits into a word. -/
theorem length_pixels (r : Raster) :
    r.pixels.length = exactCount r.width r.height r.components :=
  (map_byteCount?_iff.1 r.filled).1

theorem exactCount_lt (r : Raster) : exactCount r.width r.height r.components < UInt64.size :=
  (map_byteCount?_iff.1 r.filled).2

/-- Every raster is made of its own parts. -/
theorem make?_self (r : Raster) :
    make? r.width r.height r.components r.pixels = some (.ok r) :=
  make?_of_filled r.nonempty r.layout r.filled

/-- The work breaks off exactly where dimensions and components are right and the size does not
    fit into a word. -/
theorem make?_eq_none_iff :
    make? width height components pixels = none ↔
      (width ≠ 0 ∧ height ≠ 0) ∧ (components = 3 ∨ components = 4) ∧
        UInt64.size ≤ exactCount width height components := by
  constructor
  · intro h
    obtain ⟨e, herror⟩ | ⟨hd, hc, ⟨hsize, -⟩ | ⟨hp, hok⟩⟩ :=
      make?_cases width height components pixels
    · cases h.symm.trans herror
    · exact ⟨hd, hc, hsize⟩
    · cases h.symm.trans hok
  · rintro ⟨hd, hc, hsize⟩
    exact make?_of_too_large hd hc hsize

/-- The raster with the given parts, or what keeps it from being made, for a size that fits into
    a word. -/
def ofFitting (width height : UInt32) (components : UInt8) (pixels : Bytes)
    (h : exactCount width height components < UInt64.size) : Except RasterError Raster :=
  (make? width height components pixels).get
    (Option.isSome_iff_ne_none.2 fun hnone =>
      Nat.not_le_of_lt h (make?_eq_none_iff.1 hnone).2.2)

theorem ofFitting_eq_iff {result : Except RasterError Raster}
    (h : exactCount width height components < UInt64.size) :
    ofFitting width height components pixels h = result ↔
      make? width height components pixels = some result :=
  ⟨fun heq => heq ▸ (Option.some_get _).symm, Option.get_of_eq_some _⟩

/-! ## §4 Looking at a raster -/

/-- Whether the fourth sample of a pixel is its alpha. -/
def hasAlpha (r : Raster) : Bool :=
  r.components == 4

/-- The shorter edge. -/
def shortEdge (r : Raster) : UInt32 :=
  min r.width r.height

/-- The red, green and blue samples; alpha is dropped and not blended in. -/
def rgb (r : Raster) : Bytes :=
  if r.hasAlpha then (r.pixels.zipIdx.filter fun (_, i) => i % 4 != 3).map (·.1)
  else r.pixels

/-- A one-line description, without the samples. -/
def summary (r : Raster) : String :=
  "RasterBuffer \x7b width: " ++ toString r.width ++ ", height: " ++ toString r.height ++
    ", components: " ++ toString r.components ++ ", bytes: " ++ toString r.pixels.length ++
    " \x7d"

end Raster

end Quicklook
