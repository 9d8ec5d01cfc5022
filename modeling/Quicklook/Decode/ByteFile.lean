import Quicklook.Decode.Walk
import Quicklook.Decode.SegmentFile

/-!
# Files of bytes

The smallest format of segments: every byte is one. An even byte is a grey pixel, zero is a
segment without a picture, an odd byte cannot be rendered, and the largest byte is an error
of the file.
-/

namespace Quicklook.ByteFile

/-- Reads the next byte. -/
def pull : Walk.Pull Buffer UInt8 := fun b =>
  match b.rest with
  | [] => none
  | c :: rest =>
    let after := { b with rest }
    if c = 255 then some (.error (.malformed "byte 255"), after) else some (.ok c, after)

/-- Every byte takes its place. -/
theorem pull_shrinks (b : Buffer) (c : UInt8) (b' : Buffer) (h : pull b = some (.ok c, b')) :
    b'.rest.length < b.rest.length := by
  unfold pull at h
  split at h
  · simp at h
  · rename_i heq
    simp only at h
    split at h
    · simp at h
    · simp only [Option.some.injEq, Prod.mk.injEq] at h
      rw [← h.2, heq]
      simp

/-- The picture of a byte. -/
def render (c : UInt8) : Decoded :=
  if c = 0 then .ok none
  else if c % 2 = 1 then .error (.render s!"odd segment {c}")
  else
    match Raster.ofFitting 1 1 3 [c, c, c] (by decide) with
    | .ok r => .ok (some r)
    | .error e => .error (.render e.message)

/-- The format. -/
def format : SegmentFormat UInt8 :=
  { openFile := .ok, pull, shrinks := pull_shrinks, render }

/-- The decoder of the format. -/
def decoder : Decoder :=
  format.decoder

end Quicklook.ByteFile
