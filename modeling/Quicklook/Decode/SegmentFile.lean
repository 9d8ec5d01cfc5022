import Quicklook.Decode.Walk

/-!
# Files of segments

Decoders that are put together from a reader of segments and a renderer of one segment, and
a plain format of that kind: the four letters `NITF`, then segments one after another. A
segment is a width and a height in two bytes each, a number of components in one byte, and
the samples. What is too short to begin another segment is left alone; a segment that is
begun and cut off is an error.
-/

namespace Quicklook

/-! ## §1 Formats -/

/-- A format of files that hold segments one after another. -/
structure SegmentFormat (σ : Type) where
  /-- Reads what stands before the first segment. -/
  openFile : Buffer → Except DecodeError Buffer
  pull : Walk.Pull Buffer σ
  /-- Every segment takes some bytes. -/
  shrinks : ∀ b s b', pull b = some (.ok s, b') → b'.rest.length < b.rest.length
  /-- Makes the picture of a segment, if it has one. -/
  render : σ → Decoded

/-- The decoder of a format: the first segment that renders. -/
def SegmentFormat.decoder {σ : Type} (f : SegmentFormat σ) : Decoder := fun buffer =>
  match f.openFile buffer with
  | .error e => pure (.error e)
  | .ok start =>
    Walk.Ended.found <$> Walk.firstPicture f.pull (fun s () => (f.render s, ())) start ()
      (Walk.acc_of_measure (fun b => b.rest.length) f.shrinks _)

/-! ## §2 Segments -/

/-- A segment: dimensions, the number of components, and samples. -/
structure Segment where
  width : UInt16
  height : UInt16
  components : UInt8
  pixels : Bytes
deriving Repr, DecidableEq

namespace Segment

/-- The number of samples that dimensions and components call for. -/
def pixelCount (width height : UInt16) (components : UInt8) : Nat :=
  width.toNat * height.toNat * components.toNat

/-- The most samples of a segment that is read at all. -/
def maxPixelCount : Nat :=
  16777216

/-- Whether a segment has as many samples as it says, and not too many. -/
def WellFormed (s : Segment) : Prop :=
  s.pixels.length = pixelCount s.width s.height s.components ∧
    s.pixels.length ≤ maxPixelCount

instance (s : Segment) : Decidable s.WellFormed :=
  inferInstanceAs (Decidable (_ ∧ _))

/-- The head of a segment. -/
def header (s : Segment) : Bytes :=
  Bytes.ofWord16 s.width ++ Bytes.ofWord16 s.height ++ [s.components]

/-- The bytes of a segment. -/
def toBytes (s : Segment) : Bytes :=
  s.header ++ s.pixels

/-- The message about bytes that end too soon. -/
def cutOff : DecodeError :=
  .io "failed to fill whole buffer"

/-- Reads the next segment: nothing where fewer than five bytes are left, and an error where
    samples are too many or missing. -/
def pull : Walk.Pull Buffer Segment := fun b =>
  match b.rest with
  | w₁ :: w₀ :: h₁ :: h₀ :: components :: after =>
    let width := Bytes.word16 w₁ w₀
    let height := Bytes.word16 h₁ h₀
    let n := pixelCount width height components
    let b := { b with rest := after }
    -- The limit is looked at before the samples are, so that no length can exhaust memory.
    if maxPixelCount < n then some (.error (.malformed "segment too large"), b)
    else
      match b.read? n with
      | some (pixels, b) => some (.ok ⟨width, height, components, pixels⟩, b)
      | none => some (.error cutOff, { b with rest := [] })
  | _ => none

/-- Every segment takes its head and its samples. -/
theorem pull_shrinks (b : Buffer) (s : Segment) (b' : Buffer)
    (h : pull b = some (.ok s, b')) : b'.rest.length < b.rest.length := by
  unfold pull at h
  split at h
  · rename_i heq
    simp only at h
    split at h
    · simp at h
    · split at h
      · rename_i pixels b₂ hr
        simp only [Option.some.injEq, Prod.mk.injEq, Except.ok.injEq] at h
        -- What is left is what followed the samples, and the head came before these.
        have := (Buffer.rest_of_read? hr).1
        simp only at this
        rw [heq, this, ← h.2]
        simp
        omega
      · simp at h
  · simp at h

/-- Two edges of 16 bits and one byte of components are far from any limit of words. -/
theorem exactCount_lt (s : Segment) :
    exactCount s.width.toUInt32 s.height.toUInt32 s.components < UInt64.size := by
  have harea : s.width.toNat * s.height.toNat < 2 ^ 16 * 2 ^ 16 :=
    Nat.mul_lt_mul'' s.width.toNat_lt s.height.toNat_lt
  have hsize : s.width.toNat * s.height.toNat * s.components.toNat < 2 ^ 16 * 2 ^ 16 * 2 ^ 8 :=
    Nat.mul_lt_mul'' harea s.components.toNat_lt
  exact Nat.lt_trans hsize (by decide)

/-- The picture of a segment; a segment that makes no raster cannot be rendered. -/
def render (s : Segment) : Decoded :=
  match Raster.ofFitting s.width.toUInt32 s.height.toUInt32 s.components s.pixels
    s.exactCount_lt with
  | .ok r => .ok (some r)
  | .error e => .error (.render e.message)

end Segment

/-! ## §3 The format -/

namespace SegmentFile

/-- The letters that a file begins with. -/
def magic : Bytes :=
  [0x4E, 0x49, 0x54, 0x46]

/-- A file of segments. -/
def encode (segments : List Segment) : Bytes :=
  magic ++ segments.flatMap Segment.toBytes

/-- Reads the letters at the beginning. -/
def openFile (b : Buffer) : Except DecodeError Buffer :=
  match b.read? 4 with
  | none => .error Segment.cutOff
  | some (letters, b) =>
    if letters = magic then .ok b else .error (.malformed "missing NITF magic")

/-- The format. -/
def format : SegmentFormat Segment :=
  { openFile, pull := Segment.pull, shrinks := Segment.pull_shrinks, render := Segment.render }

/-- The decoder of the format. -/
def decoder : Decoder :=
  format.decoder

end SegmentFile

end Quicklook
