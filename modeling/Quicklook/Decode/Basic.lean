import Quicklook.Event
import Quicklook.Raster.Basic
import Quicklook.Source.Stream

/-!
# Decoders

A decoder finds the first picture in a file. It is given the file as a buffer that it may
read as often as it likes, makes reports while it works, and answers with a raster, with
nothing if the file holds no picture, or with an error if the file is broken.

Main statement: of a spooled source only the bytes matter, neither the chunks they came in
nor the threshold of the spool (`value_decodeStream`).
-/

namespace Quicklook

/-- Why a file could not be decoded. -/
inductive DecodeError where
  | io (reason : String)
  | malformed (reason : String)
  | render (reason : String)
deriving Repr, DecidableEq

/-- The text of a decode error. -/
def DecodeError.message : DecodeError → String
  | .io reason => s!"IO error: {reason}"
  | .malformed reason => s!"Malformed NITF: {reason}"
  | .render reason => s!"Segment render failed: {reason}"

/-- What decoding gives: the first picture, if there is one. -/
abbrev Decoded := Except DecodeError (Option Raster)

/-- A function from files to their first picture. -/
abbrev Decoder := Buffer → Logged Decoded

/-- Spools a stream and decodes the spooled copy from its beginning. A stream that fails is
    not decoded at all. The journal may hold more than reports; `reported` says how reports
    are entered into it. -/
def decodeStream {ω : Type} (reported : Event → ω) (decoder : Buffer → Journal ω Decoded)
    (threshold : Nat) (stream : Stream) : Journal ω Decoded :=
  match Spool.fill threshold stream with
  | .error reason => pure (.error (.io reason))
  | .ok spool => do
    if spool.onDisk then Journal.note (reported (.spooledToDisk threshold))
    decoder spool.buffer

/-- The answer depends on what the stream delivers and on nothing else. -/
theorem value_decodeStream {ω : Type} (reported : Event → ω)
    (decoder : Buffer → Journal ω Decoded) (threshold : Nat) (stream : Stream) :
    (decodeStream reported decoder threshold stream).value =
      match stream.contents with
      | .ok content => (decoder (.ofBytes content)).value
      | .error reason => .error (.io reason) := by
  cases hf : stream.failure with
  | some reason => simp [decodeStream, Spool.fill, Stream.contents, hf]
  | none =>
    -- The chunks leave no trace in the buffer, and the threshold only one in the journal.
    have hb : (stream.chunks.foldl Spool.write (Spool.empty threshold)).buffer =
        .ofBytes stream.remaining := by
      rw [Spool.buffer, Spool.content_foldl_write]
      simp [Spool.content, Spool.empty, Stream.remaining]
    simp only [decodeStream, Spool.fill, Stream.contents, hf, hb]
    split <;> rfl

end Quicklook
