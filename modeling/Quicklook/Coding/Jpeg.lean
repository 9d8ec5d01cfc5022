import Quicklook.Bytes

/-!
# JPEG parameters and headers

The quality scale, the quantisation tables it gives, and the marker segments of a baseline
file that carry them: two tables and a frame header. The coded samples between the header
and the end of a file are the codec's own.

Main statement: reading a written header gives it back (`Header.ofBytes?_toBytes`).
-/

namespace Quicklook.Jpeg

/-! ## §1 Quality -/

/-- A quality from 1 to 100. -/
structure Quality where
  value : UInt8
deriving Repr, DecidableEq

namespace Quality

/-- The nearest quality of the scale to a number. -/
def clamp (n : UInt8) : Quality :=
  ⟨max 1 (min n 100)⟩

/-- The quality of renditions, unless another one is asked for. -/
def standard : Quality :=
  ⟨75⟩

/-- A clamped quality is on the scale. -/
theorem clamp_bounds (n : UInt8) : 1 ≤ (clamp n).value ∧ (clamp n).value ≤ 100 := by
  have key : ∀ n : Fin 256, 1 ≤ (clamp (UInt8.ofNat n)).value ∧
      (clamp (UInt8.ofNat n)).value ≤ 100 := by decide +kernel
  simpa using key ⟨n.toNat, n.toNat_lt⟩

end Quality

/-! ## §2 Quantisation tables -/

/-- The standard table for brightness, in zigzag order. -/
def lumaTable : List Nat := [
  16, 11, 12, 14, 12, 10, 16, 14, 13, 14, 18, 17, 16, 19, 24, 40,
  26, 24, 22, 22, 24, 49, 35, 37, 29, 40, 58, 51, 61, 60, 57, 51,
  56, 55, 64, 72, 92, 78, 64, 68, 87, 69, 55, 56, 80, 109, 81, 87,
  95, 98, 103, 104, 103, 62, 77, 113, 121, 112, 100, 120, 92, 101, 103, 99]

/-- The standard table for colour, in zigzag order. -/
def chromaTable : List Nat := [
  17, 18, 18, 24, 21, 24, 47, 26, 26, 47, 99, 66, 56, 66, 99, 99,
  99, 99, 99, 99, 99, 99, 99, 99, 99, 99, 99, 99, 99, 99, 99, 99,
  99, 99, 99, 99, 99, 99, 99, 99, 99, 99, 99, 99, 99, 99, 99, 99,
  99, 99, 99, 99, 99, 99, 99, 99, 99, 99, 99, 99, 99, 99, 99, 99]

/-- The percentage that a quality scales the standard tables by; what is off the scale
    counts as its nearer end. -/
def Quality.percentage (q : Quality) : Nat :=
  let n := (Quality.clamp q.value).value.toNat
  if n < 50 then 5000 / n else 200 - 2 * n

/-- A standard table at a quality: every entry scaled, rounded and kept in one byte. -/
def Quality.table (q : Quality) (standard : List Nat) : List UInt8 :=
  standard.map fun t => UInt8.ofNat (max 1 (min ((t * q.percentage + 50) / 100) 255))

/-! ## §3 Headers -/

/-- A quantisation table of a file. -/
structure QuantTable where
  /-- The number by which components refer to the table. -/
  id : UInt8
  /-- The entries in zigzag order. -/
  entries : List UInt8
deriving Repr, DecidableEq

/-- The frame header of a baseline file. -/
structure Frame where
  /-- The number of the coding process; 0 is baseline. -/
  process : UInt8
  /-- Bits of a sample. -/
  precision : UInt8
  height : UInt16
  width : UInt16
  components : UInt8
deriving Repr, DecidableEq

/-- What a file says about its picture before the coded samples. -/
structure Header where
  luma : QuantTable
  chroma : QuantTable
  frame : Frame
deriving Repr, DecidableEq

namespace Header

/-- The header of a picture in three components at a quality. -/
def make (width height : UInt16) (q : Quality) : Header :=
  { luma := ⟨0, q.table lumaTable⟩
    chroma := ⟨1, q.table chromaTable⟩
    frame := ⟨0, 8, height, width, 3⟩ }

/-- The marker segment of a table. -/
def tableBytes (t : QuantTable) : Bytes :=
  [0xFF, 0xDB, 0, 67, t.id] ++ t.entries

/-- The description of the three components: number, sampling and table. -/
def componentBytes : Bytes :=
  [1, 0x11, 0, 2, 0x11, 1, 3, 0x11, 1]

/-- The marker segment of a frame. -/
def frameBytes (f : Frame) : Bytes :=
  [0xFF, 0xC0 + f.process, 0, 17, f.precision] ++ Bytes.ofWord16 f.height ++
    Bytes.ofWord16 f.width ++ [f.components] ++ componentBytes

/-- A file with the header and no samples. -/
def toBytes (h : Header) : Bytes :=
  [0xFF, 0xD8] ++ tableBytes h.luma ++ tableBytes h.chroma ++ frameBytes h.frame ++ [0xFF, 0xD9]

/-- A table at the head of the bytes. -/
def readTable : Bytes → Option (QuantTable × Bytes)
  | 0xFF :: 0xDB :: 0 :: 67 :: id :: rest =>
    if 64 ≤ rest.length then some (⟨id, rest.take 64⟩, rest.drop 64) else none
  | _ => none

/-- A frame at the head of the bytes. -/
def readFrame : Bytes → Option (Frame × Bytes)
  | 0xFF :: sof :: 0 :: 17 :: precision :: h₁ :: h₀ :: w₁ :: w₀ :: components :: rest =>
    if rest.take 9 = componentBytes then
      some (⟨sof - 0xC0, precision, Bytes.word16 h₁ h₀, Bytes.word16 w₁ w₀, components⟩,
        rest.drop 9)
    else none
  | _ => none

/-- The header of a file without samples; nothing if the bytes are anything else. -/
def ofBytes? : Bytes → Option Header
  | 0xFF :: 0xD8 :: rest => do
    let (luma, rest) ← readTable rest
    let (chroma, rest) ← readTable rest
    let (frame, rest) ← readFrame rest
    if rest = [0xFF, 0xD9] then some ⟨luma, chroma, frame⟩ else none
  | _ => none

/-- Reading a written table gives it back and leaves what follows. -/
theorem readTable_tableBytes (t : QuantTable) (rest : Bytes) (h : t.entries.length = 64) :
    readTable (tableBytes t ++ rest) = some (t, rest) := by
  simp [tableBytes, readTable, h]

/-- Reading a written frame gives it back and leaves what follows. -/
theorem readFrame_frameBytes (f : Frame) (rest : Bytes) :
    readFrame (frameBytes f ++ rest) = some (f, rest) := by
  have hp : (0xC0 + f.process) - 0xC0 = f.process := by
    rw [UInt8.add_comm, UInt8.add_sub_cancel]
  have ht : (componentBytes ++ rest).take 9 = componentBytes := by simp [componentBytes]
  have hd : (componentBytes ++ rest).drop 9 = rest := by simp [componentBytes]
  simp only [frameBytes, Bytes.ofWord16, List.cons_append, List.nil_append, readFrame,
    ht, hd, if_true, hp, Bytes.word16_ofWord16]

/-- Reading a written header gives it back. -/
theorem ofBytes?_toBytes (h : Header) (hl : h.luma.entries.length = 64)
    (hc : h.chroma.entries.length = 64) : ofBytes? h.toBytes = some h := by
  simp [toBytes, ofBytes?, List.append_assoc, readTable_tableBytes _ _ hl,
    readTable_tableBytes _ _ hc, readFrame_frameBytes]

end Header

end Quicklook.Jpeg
