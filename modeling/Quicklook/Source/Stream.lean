import Quicklook.Bytes

/-!
# Streams and buffers

The bytes of a source arrive in chunks and are read once; a decoder needs a buffer that it
can read again from the beginning. Spooling turns the one into the other. A spool keeps what
is written to it in memory up to a threshold and on disk beyond; which of the two it is
shows only in the spool's own flag.

Main statements: a spool holds what was written to it (`content_foldl_write`), and it is on
disk exactly when that is more than the threshold (`onDisk_foldl_write`).
-/

namespace Quicklook

/-! ## §1 Streams -/

/-- Bytes still to be read, as a reader will deliver them. -/
structure Stream where
  /-- The chunks to come. -/
  chunks : List Bytes
  /-- What reading fails with after the last chunk; without it the stream ends there. -/
  failure : Option String
deriving Repr, DecidableEq

namespace Stream

/-- A stream that delivers all its bytes at once. -/
def ofBytes (b : Bytes) : Stream :=
  ⟨if b.isEmpty then [] else [b], none⟩

/-- Bytes in chunks of at most `size`. A chunk has at least one byte. -/
def inChunks (size : Nat) (b : Bytes) : List Bytes :=
  match b with
  | [] => []
  | c :: rest => (c :: rest.take (size - 1)) :: inChunks size (rest.drop (size - 1))
termination_by b.length
decreasing_by
  rw [List.length_drop, List.length_cons]
  omega

/-- In chunks nothing is lost. -/
theorem flatten_inChunks (size : Nat) (b : Bytes) : (inChunks size b).flatten = b := by
  fun_induction inChunks size b with
  | case1 => rfl
  | case2 c rest ih => rw [List.flatten_cons, ih, List.cons_append, List.take_append_drop]

/-- The bytes that reading will deliver before the end or the failure. -/
def remaining (s : Stream) : Bytes :=
  s.chunks.flatten

/-- What reading the stream to its end gives. -/
def contents (s : Stream) : Except String Bytes :=
  match s.failure with
  | none => .ok s.remaining
  | some reason => .error reason

/-- The stream after it has been read to its end or to its failure. -/
def drained (s : Stream) : Stream :=
  { s with chunks := [] }

end Stream

/-! ## §2 Buffers that can be read again -/

/-- A buffer and the place in it where reading goes on. -/
structure Buffer where
  content : Bytes
  rest : Bytes
deriving Repr, DecidableEq

namespace Buffer

/-- A buffer that is read from its beginning. -/
def ofBytes (b : Bytes) : Buffer :=
  ⟨b, b⟩

/-- The same buffer, read from its beginning again. -/
def rewind (b : Buffer) : Buffer :=
  ⟨b.content, b.content⟩

/-- All bytes up to the end. -/
def readAll (b : Buffer) : Bytes × Buffer :=
  (b.rest, { b with rest := [] })

/-- Exactly `n` bytes; nothing if there are fewer. -/
def read? (n : Nat) (b : Buffer) : Option (Bytes × Buffer) :=
  -- `take` gives fewer than `n` bytes only at the end of the buffer.
  let got := b.rest.take n
  if got.length = n then some (got, { b with rest := b.rest.drop n }) else none

/-- A successful read moves the place by as many bytes as it gives. -/
theorem rest_of_read? {n : Nat} {b b' : Buffer} {got : Bytes}
    (h : b.read? n = some (got, b')) :
    b.rest = got ++ b'.rest ∧ got.length = n ∧ b'.content = b.content := by
  simp only [read?] at h
  split at h
  · rename_i hn
    simp only [Option.some.injEq, Prod.mk.injEq] at h
    obtain ⟨rfl, rfl⟩ := h
    exact ⟨(List.take_append_drop n b.rest).symm, hn, rfl⟩
  · simp at h

end Buffer

/-! ## §3 Spools -/

/-- What has been written, and where it is kept. -/
structure Spool where
  /-- The most bytes that are kept in memory. -/
  threshold : Nat
  /-- The chunks that were written, the last one first. -/
  written : List Bytes
  size : Nat
  onDisk : Bool
deriving Repr, DecidableEq

namespace Spool

/-- A spool that nothing has been written to. -/
def empty (threshold : Nat) : Spool :=
  ⟨threshold, [], 0, false⟩

/-- Writes a chunk. The spool moves to disk when the chunk would take it past its threshold,
    and stays there. -/
def write (s : Spool) (chunk : Bytes) : Spool :=
  { s with
    written := chunk :: s.written
    size := s.size + chunk.length
    onDisk := s.onDisk || decide (s.threshold < s.size + chunk.length) }

/-- All bytes that were written, in order. -/
def content (s : Spool) : Bytes :=
  s.written.reverse.flatten

/-- The spool as a buffer that is read from its beginning. -/
def buffer (s : Spool) : Buffer :=
  Buffer.ofBytes s.content

/-- A spool holds the chunks that were written to it. -/
theorem content_foldl_write (chunks : List Bytes) (s : Spool) :
    (chunks.foldl write s).content = s.content ++ chunks.flatten := by
  induction chunks generalizing s with
  | nil => simp
  | cons c cs ih => rw [List.foldl_cons, ih]; simp [content, write]

/-- A spool that is on disk exactly when it has outgrown its threshold stays so. -/
theorem onDisk_foldl_write (chunks : List Bytes) (s : Spool)
    (h : s.onDisk = decide (s.threshold < s.size)) :
    (chunks.foldl write s).onDisk =
      decide (s.threshold < s.size + chunks.flatten.length) := by
  induction chunks generalizing s with
  | nil => simpa using h
  | cons c cs ih =>
    rw [List.foldl_cons, ih (s.write c)]
    · simp [write, Nat.add_assoc]
    -- Once past the threshold, the size never falls below it again.
    · simp only [write, h]
      rw [Bool.eq_iff_iff]
      simp only [Bool.or_eq_true, decide_eq_true_eq]
      omega

/-- The spool of a stream, read to its end; nothing of it is kept if the stream fails. -/
def fill (threshold : Nat) (s : Stream) : Except String Spool :=
  match s.failure with
  | none => .ok (s.chunks.foldl write (empty threshold))
  | some reason => .error reason

end Spool

end Quicklook
