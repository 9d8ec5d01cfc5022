import Quicklook.Decode.ByteFile

/-!
# Spooling is transparent

A stream is what a reader gives read by read. Copying a reader into a spool is described here as
a loop over single reads, so that a failure may come after any number of bytes, and the loop is
shown to do what filling a spool from the stream does. What is decoded afterwards depends neither
on the reads nor on the threshold.

* `copies_iff`: copying a reader, by induction on what it delivers
* `rewind_foldl_use`: a buffer is read again as often as one likes
* `decodeStream_eq_of_ok`, `decodeStream_eq_of_error`: the answer and the notes
* `decodeStream_transparent`: all of this for one reader, and the same answer for any other
-/

namespace Quicklook

/-! ## §1 Readers -/

/-- What one read gives, and the reader after it. No bytes mean the end; a read that is merely
    interrupted is made again and does not count. -/
abbrev Reader (ρ : Type) := ρ → Except String Bytes × ρ

variable {ρ : Type} {read : Reader ρ} {start last : ρ}

/-- From `start` on, a reader gives the chunks of a stream, none of them empty, and then the
    stream's end or failure, which leaves it at `last`. -/
inductive Delivers (read : Reader ρ) : ρ → Stream → ρ → Prop where
  | ended {a b : ρ} (h : read a = (.ok [], b)) : Delivers read a ⟨[], none⟩ b
  | failed {a b : ρ} {reason : String} (h : read a = (.error reason, b)) :
      Delivers read a ⟨[], some reason⟩ b
  | chunk {a b c : ρ} {bytes : Bytes} {chunks : List Bytes} {failure : Option String}
      (h : read a = (.ok bytes, b)) (hne : bytes ≠ [])
      (hrest : Delivers read b ⟨chunks, failure⟩ c) : Delivers read a ⟨bytes :: chunks, failure⟩ c

/-- Copying a reader into a spool: what is read is written, until a read gives no bytes or
    fails. A failure is all that is left of the copy. -/
inductive Copies (read : Reader ρ) : ρ → Spool → Except String Spool → ρ → Prop where
  | ended {a b : ρ} {spool : Spool} (h : read a = (.ok [], b)) :
      Copies read a spool (.ok spool) b
  | failed {a b : ρ} {spool : Spool} {reason : String} (h : read a = (.error reason, b)) :
      Copies read a spool (.error reason) b
  | chunk {a b c : ρ} {spool : Spool} {bytes : Bytes} {result : Except String Spool}
      (h : read a = (.ok bytes, b)) (hne : bytes ≠ [])
      (hrest : Copies read b (spool.write bytes) result c) : Copies read a spool result c

/-- The spool that a stream leaves when it is written to another one. -/
def Spool.fillFrom (spool : Spool) (s : Stream) : Except String Spool :=
  match s.failure with
  | none => .ok (s.chunks.foldl Spool.write spool)
  | some reason => .error reason

section OneRead

variable {a b c : ρ} {spool : Spool} {result : Except String Spool}

private theorem copies_of_ended (h : read a = (.ok [], b)) :
    Copies read a spool result c ↔ result = .ok spool ∧ c = b := by
  constructor
  · intro hc
    cases hc with
    | ended h' => exact ⟨rfl, (Prod.mk.inj (h'.symm.trans h)).2⟩
    | failed h' => cases h.symm.trans h'
    | chunk h' hne => exact absurd (Except.ok.inj (Prod.mk.inj (h'.symm.trans h)).1) hne
  · rintro ⟨rfl, rfl⟩
    exact .ended h

private theorem copies_of_failed {reason : String} (h : read a = (.error reason, b)) :
    Copies read a spool result c ↔ result = .error reason ∧ c = b := by
  constructor
  · intro hc
    cases hc with
    | ended h' => cases h.symm.trans h'
    | failed h' =>
      obtain ⟨hr, rfl⟩ := Prod.mk.inj (h'.symm.trans h)
      exact ⟨congrArg _ (Except.error.inj hr), rfl⟩
    | chunk h' hne => cases h.symm.trans h'
  · rintro ⟨rfl, rfl⟩
    exact .failed h

private theorem copies_of_chunk {bytes : Bytes} (h : read a = (.ok bytes, b)) (hne : bytes ≠ []) :
    Copies read a spool result c ↔ Copies read b (spool.write bytes) result c := by
  constructor
  · intro hc
    cases hc with
    | ended h' => exact absurd (Except.ok.inj (Prod.mk.inj (h.symm.trans h')).1) hne
    | failed h' => cases h.symm.trans h'
    | chunk h' _ hrest =>
      obtain ⟨hb, rfl⟩ := Prod.mk.inj (h'.symm.trans h)
      rwa [← Except.ok.inj hb]
  · exact .chunk h hne

end OneRead

/-- Copying ends in one way: with what was read, or with the failure of the reader. -/
theorem copies_iff {s : Stream} (h : Delivers read start s last) {spool : Spool}
    {result : Except String Spool} {stop : ρ} :
    Copies read start spool result stop ↔ result = spool.fillFrom s ∧ stop = last := by
  -- Every chunk that is delivered changes the spool, so the claim is about any spool.
  induction h generalizing spool with
  | ended h => exact copies_of_ended h
  | failed h => exact copies_of_failed h
  | chunk h hne _ ih => exact (copies_of_chunk h hne).trans ih

namespace Stream

theorem contents_eq_ok_iff {s : Stream} {content : Bytes} :
    s.contents = .ok content ↔ s.failure = none ∧ s.remaining = content := by
  cases h : s.failure <;> simp [contents, h]

theorem contents_eq_error_iff {s : Stream} {reason : String} :
    s.contents = .error reason ↔ s.failure = some reason := by
  cases h : s.failure <;> simp [contents, h]

/-- A stream as the reader of itself. -/
def next : Reader Stream
  | ⟨bytes :: chunks, failure⟩ => (.ok bytes, ⟨chunks, failure⟩)
  | ⟨[], none⟩ => (.ok [], ⟨[], none⟩)
  | ⟨[], some reason⟩ => (.error reason, ⟨[], some reason⟩)

/-- A stream delivers itself and is read to its end or to its failure. -/
theorem delivers_next (s : Stream) (h : ∀ bytes ∈ s.chunks, bytes ≠ []) :
    Delivers next s s s.drained := by
  obtain ⟨chunks, failure⟩ := s
  induction chunks with
  | nil =>
    cases failure with
    | none => exact .ended rfl
    | some reason => exact .failed rfl
  | cons bytes chunks ih =>
    exact .chunk rfl (h bytes (by simp)) (ih fun b hb => h b (by simp [hb]))

end Stream

/-! ## §2 Buffers -/

namespace Buffer

/-- What a decoder may do with a buffer. -/
inductive Use where
  /-- Reads exactly `n` bytes, or all there are if these are fewer. -/
  | read (n : Nat)
  | readAll
  | rewind

def use (b : Buffer) : Use → Buffer
  | .read n =>
    match b.read? n with
    | some (_, after) => after
    | none => b.readAll.2
  | .readAll => b.readAll.2
  | .rewind => b.rewind

/-- Reading moves on within the content and does not change it. -/
theorem content_use (b : Buffer) (u : Use) : (b.use u).content = b.content := by
  cases u with
  | read n =>
    -- If there is not enough to read, all of it is read.
    cases h : b.read? n with
    | none => simp only [use, h, readAll]
    | some got =>
      simp only [use, h]
      exact (rest_of_read? h).2.2
  | readAll => rfl
  | rewind => rfl

/-- However a buffer was used, after rewinding it is as it was at first. -/
theorem rewind_foldl_use (content : Bytes) (uses : List Use) :
    (uses.foldl use (.ofBytes content)).rewind = .ofBytes content := by
  -- No use changes the content, and rewinding forgets the rest.
  have hcontent : ∀ b : Buffer, (uses.foldl use b).content = b.content := by
    induction uses with
    | nil => exact fun _ => rfl
    | cons u uses ih => exact fun b => (ih (b.use u)).trans (content_use b u)
  rw [rewind, hcontent]
  rfl

end Buffer

/-! ## §3 Decoding what was spooled -/

section Decoding

variable {ω : Type} (reported : Event → ω) (decoder : Buffer → Journal ω Decoded)

/-- The note that a spool has moved to disk. -/
def rollover (threshold : Nat) (content : Bytes) : List ω :=
  if threshold < content.length then [reported (.spooledToDisk threshold)] else []

/-- What a spool holds after a stream that ends, and where. -/
private theorem exists_fill {s : Stream} (h : s.failure = none) (threshold : Nat) :
    ∃ spool, Spool.fill threshold s = .ok spool ∧ spool.buffer = .ofBytes s.remaining ∧
      spool.onDisk = decide (threshold < s.remaining.length) := by
  refine ⟨s.chunks.foldl Spool.write (Spool.empty threshold), ?_, ?_, ?_⟩
  · simp only [Spool.fill, h]
  · rw [Spool.buffer, Spool.content_foldl_write]
    rfl
  · -- The flag is right for an empty spool, and writing keeps it so.
    have hthreshold : (Spool.empty threshold).onDisk =
        decide ((Spool.empty threshold).threshold < (Spool.empty threshold).size) := by
      simp [Spool.empty]
    rw [Spool.onDisk_foldl_write _ _ hthreshold]
    simp [Spool.empty, Stream.remaining]

/-- The decoder is given the bytes in memory or on disk, from the first one on. -/
theorem decodeStream_eq_of_ok {s : Stream} {content : Bytes} (h : s.contents = .ok content)
    (threshold : Nat) :
    decodeStream reported decoder threshold s =
      ⟨(decoder (.ofBytes content)).value,
        rollover reported threshold content ++ (decoder (.ofBytes content)).entries⟩ := by
  obtain ⟨hf, rfl⟩ := Stream.contents_eq_ok_iff.1 h
  obtain ⟨spool, hfill, hbuffer, hdisk⟩ := exists_fill hf threshold
  simp only [decodeStream, hfill, hbuffer, hdisk, decide_eq_true_eq, rollover]
  split <;> rfl

/-- Without all the bytes there is no decoding. -/
theorem decodeStream_eq_of_error {s : Stream} {reason : String}
    (h : s.contents = .error reason) (threshold : Nat) :
    decodeStream reported decoder threshold s = pure (.error (.io reason)) := by
  simp only [decodeStream, Spool.fill, Stream.contents_eq_error_iff.1 h]

/-- **Spooling is transparent.** Copying a reader read by read ends as filling a spool does. If
    the reader comes to its end, the decoder is given all the bytes from the first one on, can
    read them again whenever it rewinds, and its answer is the answer; before its own notes there
    is one more exactly if there are more bytes than the threshold. If the reader fails, after
    whatever bytes, its failure is the answer and the decoder is not called. Nothing but the
    bytes or the failure matters, neither the threshold nor how the bytes were read. -/
theorem decodeStream_transparent {s : Stream} (h : Delivers read start s last)
    (threshold : Nat) :
    (∀ result stop, Copies read start (Spool.empty threshold) result stop ↔
      result = Spool.fill threshold s ∧ stop = last) ∧
    (∀ content, s.contents = .ok content →
      decodeStream reported decoder threshold s =
          ⟨(decoder (.ofBytes content)).value,
            (if threshold < content.length then [reported (.spooledToDisk threshold)] else []) ++
              (decoder (.ofBytes content)).entries⟩ ∧
        (Buffer.ofBytes content).readAll.1 = content ∧
        ∀ uses : List Buffer.Use,
          (uses.foldl Buffer.use (.ofBytes content)).rewind = .ofBytes content) ∧
    (∀ reason, s.contents = .error reason →
      decodeStream reported decoder threshold s = pure (.error (.io reason))) ∧
    ∀ (other : Stream) (threshold' : Nat), other.contents = s.contents →
      (decodeStream reported decoder threshold' other).value =
        (decodeStream reported decoder threshold s).value := by
  refine ⟨?_, ?_, ?_, ?_⟩
  · intro result stop
    exact copies_iff h
  · intro content hc
    exact ⟨decodeStream_eq_of_ok reported decoder hc threshold, rfl,
      Buffer.rewind_foldl_use content⟩
  · intro reason hc
    exact decodeStream_eq_of_error reported decoder hc threshold
  -- Neither side depends on more than the contents.
  · intro other threshold' hc
    rw [value_decodeStream, value_decodeStream, hc]

end Decoding

/-- Two bytes that are read one by one go over a threshold of one byte, and are decoded as if
    they had been read at once and kept in memory; a reader that fails after the first of them
    gives its failure. -/
theorem decodeStream_of_single_bytes :
    let s : Stream := ⟨[[3], [8]], none⟩
    let broken : Stream := ⟨[[3]], some "gone"⟩
    Delivers Stream.next s s ⟨[], none⟩ ∧ Delivers Stream.next broken broken ⟨[], some "gone"⟩ ∧
      s.contents = .ok [3, 8] ∧ broken.contents = .error "gone" ∧
      (decodeStream id ByteFile.decoder 1 s).entries =
        .spooledToDisk 1 :: (ByteFile.decoder (.ofBytes [3, 8])).entries ∧
      (decodeStream id ByteFile.decoder 9 (.ofBytes [3, 8])).value =
        (decodeStream id ByteFile.decoder 1 s).value ∧
      decodeStream id ByteFile.decoder 1 broken = pure (.error (.io "gone")) := by
  intro s broken
  have hs : Delivers Stream.next s s ⟨[], none⟩ := s.delivers_next (by decide)
  have hb : Delivers Stream.next broken broken ⟨[], some "gone"⟩ := broken.delivers_next (by decide)
  obtain ⟨-, hok, -, hother⟩ := decodeStream_transparent id ByteFile.decoder hs 1
  obtain ⟨-, -, herror, -⟩ := decodeStream_transparent id ByteFile.decoder hb 1
  refine ⟨hs, hb, rfl, rfl, ?_, hother (.ofBytes [3, 8]) 9 rfl, herror "gone" rfl⟩
  rw [(hok [3, 8] rfl).1]
  rfl

end Quicklook
