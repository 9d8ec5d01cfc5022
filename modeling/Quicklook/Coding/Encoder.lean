import Quicklook.Raster.Resample
import Quicklook.Coding.Jpeg
import Quicklook.Coding.Jp2

/-!
# Encoders

What the renditions are made with. An encoder turns a raster into the bytes of a file; any
pair of functions will do. The standard one prepares the picture (fill and crop to the box,
drop alpha, choose the resolutions) and leaves the coding of samples to a codec.

Main statements: the standard encoder refuses exactly the boxes with an empty edge
(`ofCodec_boxed_invalidBox_iff`), and it reports a codec's failure as a failed compression.
-/

namespace Quicklook

/-! ## §1 Encoders and their errors -/

/-- Why a raster could not be encoded. -/
inductive EncodeError where
  | io (reason : String)
  | invalidBox (width height : UInt32)
  /-- The picture could not be brought to the size of the box. -/
  | resample (reason : String)
  | compression (reason : String)
deriving Repr, DecidableEq

/-- The text of an encode error. -/
def EncodeError.message : EncodeError → String
  | .io reason => s!"IO error: {reason}"
  | .invalidBox w h => s!"Invalid output box {w}x{h}"
  | .resample reason => s!"Resampling failed: {reason}"
  | .compression reason => s!"Compression failed: {reason}"

/-- What renditions are made with: files for a box, and lossy files in full size. -/
structure Encoder where
  /-- The raster brought to the size of a box. -/
  boxed : Raster → Box → Except EncodeError Bytes
  /-- The raster in full size with a lossy profile. -/
  lossy : Raster → Jp2.Profile → Except EncodeError Bytes

/-! ## §2 Codecs -/

/-- What a JPEG 2000 coder is given. -/
structure Jp2.Job where
  /-- Red, green and blue samples, interleaved. -/
  samples : Bytes
  width : UInt32
  height : UInt32
  /-- How many times smaller the file is to be. -/
  ratio : Float32
  resolutions : Nat

/-- A coder of samples. Failures are texts. -/
structure Codec where
  /-- A baseline JPEG file of a picture at a quality. -/
  jpeg : Picture → Jpeg.Quality → Except String Bytes
  /-- A lossy JPEG 2000 file. -/
  jp2 : Jp2.Job → Except String Bytes

/-- The longest edge of a JPEG file: its frame header has 16 bits for each. -/
def Jpeg.maxEdge : Nat :=
  65535

/-- Why a picture of a size has no JPEG file. -/
def Jpeg.invalidSize (width height : Nat) : String :=
  s!"Format error encoding Jpeg:\nInvalid image size ({width} x {height}) to encode as JPEG: " ++
    s!"width and height must be >= 1 and <= {Jpeg.maxEdge}"

/-- The codec that writes headers only: all that tells a file's size, depth, quantisation
    and coding style, and none of its samples. -/
def Codec.headers : Codec where
  jpeg p q :=
    if 1 ≤ p.width ∧ p.width ≤ Jpeg.maxEdge ∧ 1 ≤ p.height ∧ p.height ≤ Jpeg.maxEdge then
      .ok (Jpeg.Header.make (UInt16.ofNat p.width) (UInt16.ofNat p.height) q).toBytes
    else .error (Jpeg.invalidSize p.width p.height)
  jp2 job := .ok (Jp2.Header.make job.width job.height job.resolutions).toBytes

/-! ## §3 The standard encoder -/

/-- The picture of a raster in a box, or why there is none. -/
def Raster.fillBox (r : Raster) (box : Box) : Except EncodeError Picture :=
  if box.width = 0 ∨ box.height = 0 then .error (.invalidBox box.width box.height)
  else
    let plan := FillPlan.make r.width r.height box
    if plan.Fills box then .ok (Picture.filled r box plan)
    else
      let got := s!"{plan.croppedWidth box}x{plan.croppedHeight box}"
      .error (.resample s!"resampled to {got}, expected {box.width}x{box.height}")

/-- What a JPEG 2000 coder is given for samples of a picture of the given size. Nothing, neither
    that nor an error, where the size does not fit into a word. -/
def Jp2.Job.make? (samples : Bytes) (width height : UInt32) (profile : Jp2.Profile) :
    Option (Except EncodeError Jp2.Job) :=
  (byteCount? width height 3).map fun expected =>
    if samples.length = expected.toNat then
      .ok { samples, width, height, ratio := profile.ratio
            resolutions := profile.resolutionCount (min width height) }
    else
      .error (.compression s!"RGB buffer holds {samples.length} bytes, expected {expected}")

/-- Without alpha a raster is no larger than it is. -/
theorem Raster.exactCount_three_le (r : Raster) :
    exactCount r.width r.height 3 ≤ exactCount r.width r.height r.components := by
  apply Nat.mul_le_mul_left
  rcases r.layout with hc | hc <;> simp [hc]

/-- The size of a raster's colours fits into a word, because its own size does. -/
theorem Raster.exactCount_three_lt (r : Raster) : exactCount r.width r.height 3 < UInt64.size :=
  Nat.lt_of_le_of_lt r.exactCount_three_le r.exactCount_lt

/-- For a raster the work is never broken off. -/
theorem Raster.isSome_job (r : Raster) (profile : Jp2.Profile) :
    (Jp2.Job.make? r.rgb r.width r.height profile).isSome := by
  rw [Jp2.Job.make?, Option.isSome_map, Option.isSome_iff_ne_none, ne_eq, byteCount?_eq_none_iff]
  exact Nat.not_le_of_lt r.exactCount_three_lt

/-- A result of the codec as one of the encoder. -/
def Codec.lift (note : String) : Except String Bytes → Except EncodeError Bytes
  | .ok b => .ok b
  | .error reason => .error (.compression (note ++ reason))

/-- The standard encoder over a codec, with a quality for boxed files. -/
def Encoder.ofCodec (codec : Codec) (quality : Jpeg.Quality) : Encoder where
  boxed r box := do
    let picture ← r.fillBox box
    Codec.lift "JPEG encode failed: " (codec.jpeg picture quality)
  lossy r profile := do
    let job ← (Jp2.Job.make? r.rgb r.width r.height profile).get (r.isSome_job profile)
    Codec.lift "" (codec.jp2 job)

/-- A box is refused exactly when one of its edges is empty. -/
theorem ofCodec_boxed_invalidBox_iff (codec : Codec) (quality : Jpeg.Quality) (r : Raster)
    (box : Box) :
    (Encoder.ofCodec codec quality).boxed r box = .error (.invalidBox box.width box.height) ↔
      box.width = 0 ∨ box.height = 0 := by
  by_cases h : box.width = 0 ∨ box.height = 0
  -- The box is looked at before anything is prepared.
  · simp only [Encoder.ofCodec, Raster.fillBox, h, iff_true]
    rfl
  -- All later failures are of another kind.
  · simp only [Encoder.ofCodec, Raster.fillBox, h, iff_false]
    by_cases hf : (FillPlan.make r.width r.height box).Fills box
    · rw [if_pos hf]
      cases hj : codec.jpeg (Picture.filled r box (FillPlan.make r.width r.height box)) quality <;>
        simp [bind, Except.bind, hj, Codec.lift]
    · rw [if_neg hf]
      simp [bind, Except.bind]

end Quicklook
