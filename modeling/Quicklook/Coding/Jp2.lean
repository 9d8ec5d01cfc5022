import Quicklook.Binary.Word
import Quicklook.Bytes

/-!
# JPEG 2000 parameters and headers

The lossy profile of recompressed originals, the number of resolutions that a picture can
have, and the boxes and marker segments of a file that describe it. The coded samples are
the codec's own.

Main statements: the number of resolutions is always defined (`resolutions?_eq`) and at least
one (`one_le_resolutionCount`), and reading a written header gives it back
(`Header.ofBytes?_toBytes`).
-/

namespace Quicklook.Jp2

/-! ## §1 The profile -/

/-- The parameters of a lossy file. -/
structure Profile where
  /-- How many times smaller than the samples the file is to be. -/
  ratio : Float32
  /-- The most resolutions a file has. -/
  maxResolutions : UInt32

namespace Profile

/-- The profile of recompressed originals. -/
def lossy : Profile :=
  ⟨20, 6⟩

/-- The number of resolutions of a picture with the given shorter edge, as a word: the bits of
    the edge from its highest one down, within the bounds of the profile. An empty edge counts
    as one pixel. Nothing where one of the operations has no result. -/
def resolutions? (p : Profile) (shortEdge : UInt32) : Option UInt32 := do
  let bits ← Binary.difference? 32 (Binary.leadingZeros (max shortEdge 1))
  Binary.clamp? bits 1 (max p.maxResolutions 1)

/-- There are never more zeros than bits, and the bounds of the profile are in order. -/
theorem resolutions?_eq (p : Profile) (shortEdge : UInt32) :
    p.resolutions? shortEdge = some (max 1
      (min (32 - Binary.leadingZeros (max shortEdge 1)) (max p.maxResolutions 1))) := by
  rw [resolutions?, Binary.difference?_of_le (Binary.leadingZeros_le _)]
  exact Binary.clamp?_of_le (Binary.right_le_max _ 1) _

/-- The number of resolutions of a picture with the given shorter edge; there always is one. -/
def resolutionCount (p : Profile) (shortEdge : UInt32) : Nat :=
  ((p.resolutions? shortEdge).get (p.resolutions?_eq shortEdge ▸ rfl)).toNat

theorem resolutions?_eq_some (p : Profile) (shortEdge : UInt32) :
    ∃ n, p.resolutions? shortEdge = some n ∧ n.toNat = p.resolutionCount shortEdge :=
  ⟨_, (Option.some_get _).symm, rfl⟩

theorem resolutionCount_eq_toNat (p : Profile) (shortEdge : UInt32) :
    p.resolutionCount shortEdge = (max 1
      (min (32 - Binary.leadingZeros (max shortEdge 1)) (max p.maxResolutions 1))).toNat := by
  obtain ⟨n, hn, hcount⟩ := p.resolutions?_eq_some shortEdge
  rw [resolutions?_eq] at hn
  rw [← hcount, Option.some.inj hn]

/-- There is always at least one resolution. -/
theorem one_le_resolutionCount (p : Profile) (shortEdge : UInt32) :
    1 ≤ p.resolutionCount shortEdge := by
  rw [resolutionCount_eq_toNat]
  exact UInt32.le_iff_toNat_le.1 (Binary.left_le_max 1 _)

/-- The bytes that the profile allows for `n` bytes of samples. -/
def budget (p : Profile) (n : Nat) : Nat :=
  (n.toFloat / p.ratio.toFloat).toUInt64.toNat

end Profile

/-! ## §2 Headers -/

/-- What a file says about its picture before the coded samples. -/
structure Header where
  height : UInt32
  width : UInt32
  components : UInt16
  /-- Bits of a sample less one, with a sign flag on top. -/
  depth : UInt8
  /-- How the colour space is given; 1 is by its number. -/
  colourMethod : UInt8
  /-- The number of the colour space; 16 is sRGB. -/
  colourSpace : UInt32
  depths : List UInt8
  layers : UInt16
  /-- Whether the components are decorrelated, 1 if they are. -/
  decorrelated : UInt8
  levels : UInt8
  /-- The wavelet; 0 is the irreversible 9/7 one. -/
  wavelet : UInt8
deriving Repr, DecidableEq

namespace Header

/-- The header of a lossy picture in three components of 8 bits, in one layer, with the
    given number of resolutions. -/
def make (width height : UInt32) (resolutions : Nat) : Header :=
  { height, width, components := 3, depth := 7, colourMethod := 1, colourSpace := 16
    depths := [7, 7, 7], layers := 1, decorrelated := 1
    levels := UInt8.ofNat (resolutions - 1), wavelet := 0 }

/-- The signature and the file type. -/
def signature : Bytes :=
  [0, 0, 0, 12, 0x6A, 0x50, 0x20, 0x20, 0x0D, 0x0A, 0x87, 0x0A,
   0, 0, 0, 20, 0x66, 0x74, 0x79, 0x70, 0x6A, 0x70, 0x32, 0x20, 0, 0, 0, 0,
   0x6A, 0x70, 0x32, 0x20]

/-- The opening of the box that holds the image header and the colour specification. -/
def headerOpening : Bytes :=
  [0, 0, 0, 45, 0x6A, 0x70, 0x32, 0x68]

/-- The image header box. -/
def imageBytes (h : Header) : Bytes :=
  [0, 0, 0, 22, 0x69, 0x68, 0x64, 0x72] ++ Bytes.ofWord32 h.height ++ Bytes.ofWord32 h.width ++
    Bytes.ofWord16 h.components ++ [h.depth, 7, 0, 0]

/-- The colour specification box. -/
def colourBytes (h : Header) : Bytes :=
  [0, 0, 0, 15, 0x63, 0x6F, 0x6C, 0x72, h.colourMethod, 0, 0] ++ Bytes.ofWord32 h.colourSpace

/-- The opening of the codestream box, up to the size of the picture. -/
def streamOpening : Bytes :=
  [0, 0, 0, 0, 0x6A, 0x70, 0x32, 0x63, 0xFF, 0x4F, 0xFF, 0x51, 0, 47, 0, 0]

/-- The rest of the size segment: the picture, no offsets, one tile, and three components
    with samples at every pixel. -/
def sizeBytes (h : Header) : Bytes :=
  Bytes.ofWord32 h.width ++ Bytes.ofWord32 h.height ++ [0, 0, 0, 0, 0, 0, 0, 0] ++
    Bytes.ofWord32 h.width ++ Bytes.ofWord32 h.height ++ [0, 0, 0, 0, 0, 0, 0, 0] ++
    Bytes.ofWord16 h.components ++ h.depths.flatMap fun d => [d, 1, 1]

/-- The coding style segment. -/
def styleBytes (h : Header) : Bytes :=
  [0xFF, 0x52, 0, 12, 0, 0] ++ Bytes.ofWord16 h.layers ++
    [h.decorrelated, h.levels, 4, 4, 0, h.wavelet]

/-- A file with the header and no samples. -/
def toBytes (h : Header) : Bytes :=
  signature ++ headerOpening ++ imageBytes h ++ colourBytes h ++ streamOpening ++ sizeBytes h ++
    styleBytes h ++ [0xFF, 0xD9]

/-- The bytes after a text that they begin with. -/
def after? (opening : Bytes) (b : Bytes) : Option Bytes :=
  if b.take opening.length = opening then some (b.drop opening.length) else none

/-- The header of a file without samples whose components are three; nothing if the bytes
    are anything else. -/
def ofBytes? (b : Bytes) : Option Header := do
  let rest ← after? (signature ++ headerOpening) b
  let rest ← after? [0, 0, 0, 22, 0x69, 0x68, 0x64, 0x72] rest
  match rest with
  | h₃ :: h₂ :: h₁ :: h₀ :: w₃ :: w₂ :: w₁ :: w₀ :: c₁ :: c₀ :: depth :: 7 :: 0 :: 0 ::
      0 :: 0 :: 0 :: 15 :: 0x63 :: 0x6F :: 0x6C :: 0x72 :: method :: 0 :: 0 ::
      e₃ :: e₂ :: e₁ :: e₀ :: rest =>
    let rest ← after? streamOpening rest
    -- The size segment repeats the dimensions; what it adds is read further on.
    let found : Header :=
      { height := Bytes.word32 h₃ h₂ h₁ h₀, width := Bytes.word32 w₃ w₂ w₁ w₀
        components := Bytes.word16 c₁ c₀, depth, colourMethod := method
        colourSpace := Bytes.word32 e₃ e₂ e₁ e₀
        depths := [], layers := 0, decorrelated := 0, levels := 0, wavelet := 0 }
    match rest.drop 34 with
    | d₀ :: 1 :: 1 :: d₁ :: 1 :: 1 :: d₂ :: 1 :: 1 :: 0xFF :: 0x52 :: 0 :: 12 :: 0 :: 0 ::
        l₁ :: l₀ :: mct :: levels :: 4 :: 4 :: 0 :: wavelet :: 0xFF :: 0xD9 :: [] =>
      let found := { found with
        depths := [d₀, d₁, d₂], layers := Bytes.word16 l₁ l₀, decorrelated := mct
        levels, wavelet }
      -- Whatever was passed over is as it was written for this header.
      if found.toBytes = b then some found else none
    | _ => none
  | _ => none

/-- Reading the header that was written for a picture gives it back. -/
theorem ofBytes?_toBytes (width height : UInt32) (resolutions : Nat) :
    ofBytes? (make width height resolutions).toBytes = some (make width height resolutions) := by
  simp [ofBytes?, after?, make, toBytes, signature, headerOpening, imageBytes, colourBytes,
    streamOpening, sizeBytes, styleBytes, Bytes.ofWord32, Bytes.ofWord16]
  decide

end Header

end Quicklook.Jp2
