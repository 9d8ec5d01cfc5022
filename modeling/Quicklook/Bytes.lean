/-!
# Byte strings

Contents of files, streams and attribute values, and the big-endian words in them.
-/

namespace Quicklook

/-- A string of bytes. -/
abbrev Bytes := List UInt8

namespace Bytes

/-- The UTF-8 form of a text. -/
def ofText (s : String) : Bytes :=
  s.toUTF8.toList

/-- The text that the bytes are the UTF-8 form of, if they are one. -/
def text? (b : Bytes) : Option String :=
  String.fromUTF8? (ByteArray.mk b.toArray)

/-! ## §1 Big-endian words -/

/-- The two bytes of a 16-bit word, the high one first. -/
def ofWord16 (w : UInt16) : Bytes :=
  [UInt8.ofNat (w.toNat / 256), w.toUInt8]

/-- The 16-bit word of a high and a low byte. -/
def word16 (hi lo : UInt8) : UInt16 :=
  UInt16.ofNat (256 * hi.toNat + lo.toNat)

/-- The four bytes of a 32-bit word, the high ones first. -/
def ofWord32 (w : UInt32) : Bytes :=
  [UInt8.ofNat (w.toNat / 16777216), UInt8.ofNat (w.toNat / 65536), UInt8.ofNat (w.toNat / 256),
    w.toUInt8]

/-- The 32-bit word of four bytes, the highest first. -/
def word32 (a b c d : UInt8) : UInt32 :=
  UInt32.ofNat (16777216 * a.toNat + 65536 * b.toNat + 256 * c.toNat + d.toNat)

/-- Reading back the two bytes of a word gives the word. -/
@[simp] theorem word16_ofWord16 (w : UInt16) :
    word16 (UInt8.ofNat (w.toNat / 256)) w.toUInt8 = w := by
  have hw := w.toNat_lt
  apply UInt16.toNat_inj.1
  simp only [word16, UInt16.toNat_ofNat', UInt8.toNat_ofNat', UInt16.toNat_toUInt8]
  omega

/-- Reading back the four bytes of a word gives the word. -/
@[simp] theorem word32_ofWord32 (w : UInt32) :
    word32 (UInt8.ofNat (w.toNat / 16777216)) (UInt8.ofNat (w.toNat / 65536))
      (UInt8.ofNat (w.toNat / 256)) w.toUInt8 = w := by
  have hw := w.toNat_lt
  apply UInt32.toNat_inj.1
  simp only [word32, UInt32.toNat_ofNat', UInt8.toNat_ofNat', UInt32.toNat_toUInt8]
  omega

end Bytes

end Quicklook
