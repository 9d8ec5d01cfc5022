import Quicklook.Decode.SegmentFile
import Quicklook.Proofs.Decode.FirstPicture
import Quicklook.Proofs.Raster.Size

/-!
# Files that are cut off

A file of segments is decoded to the first of its pictures, and so is whatever has been left of
it by cutting it off at some byte: the segments that are still whole are read as before. Where
none of these is a picture, it depends on the cut what is found. If it went through the samples
of a segment the file is broken; if it went through the head of one, or between two, there is
just nothing more to be read.

* `pull_toBytes_append`, `pull_of_short`, `pull_of_cut`: what is read off a whole segment, and
  off the beginning of one
* `found_walk_flatMap`: the walk over whole segments, by induction on them
* `exists_split`: what is left of a row of pieces when it is cut off
* `decoder_of_isPrefix`: what is decoded of every part of a file that has its letters
-/

namespace Quicklook

/-! ## §1 One segment -/

namespace Segment

/-- Whether a segment is a picture: it has an extent, and its pixels have three or four samples. -/
def IsPicture (s : Segment) : Prop :=
  s.width ≠ 0 ∧ s.height ≠ 0 ∧ (s.components = 3 ∨ s.components = 4)

instance (s : Segment) : Decidable s.IsPicture :=
  inferInstanceAs (Decidable (_ ∧ _))

/-- A raster has the dimensions, the components and the samples of a segment. -/
structure Shows (s : Segment) (r : Raster) : Prop where
  width : r.width.toNat = s.width.toNat
  height : r.height.toNat = s.height.toNat
  components : r.components = s.components
  pixels : r.pixels = s.pixels

variable {s : Segment}

/-- The size that a segment calls for is that of its raster. -/
theorem exactCount_eq_pixelCount (width height : UInt16) (components : UInt8) :
    exactCount width.toUInt32 height.toUInt32 components = pixelCount width height components := by
  rw [exactCount, pixelCount, UInt16.toNat_toUInt32, UInt16.toNat_toUInt32]

theorem toUInt32_eq_zero_iff {n : UInt16} : n.toUInt32 = 0 ↔ n = 0 := by
  rw [← UInt32.toNat_inj, ← UInt16.toNat_inj, UInt16.toNat_toUInt32]
  rfl

/-- A picture renders to the raster that it shows. -/
theorem exists_render_eq_ok (hwf : s.WellFormed) (h : s.IsPicture) :
    ∃ r, s.render = .ok (some r) ∧ s.Shows r := by
  obtain ⟨hwidth, hheight, hcomponents⟩ := h
  have hedges : s.width.toUInt32 ≠ 0 ∧ s.height.toUInt32 ≠ 0 :=
    ⟨mt toUInt32_eq_zero_iff.1 hwidth, mt toUInt32_eq_zero_iff.1 hheight⟩
  have hfilled := Raster.map_byteCount?_iff.2
    ⟨hwf.1.trans (exactCount_eq_pixelCount s.width s.height s.components).symm, s.exactCount_lt⟩
  have hmake := (Raster.ofFitting_eq_iff s.exactCount_lt).2
    (Raster.make?_of_filled hedges hcomponents hfilled)
  refine ⟨_, by rw [render, hmake], ?_⟩
  exact ⟨s.width.toNat_toUInt32, s.height.toNat_toUInt32, rfl, rfl⟩

/-- Any other segment is an error of its own, which does not end the walk. -/
theorem exists_render_eq_error (h : ¬ s.IsPicture) : ∃ e, s.render = .error e := by
  cases hmake : Raster.ofFitting s.width.toUInt32 s.height.toUInt32 s.components s.pixels
    s.exactCount_lt with
  | error e => exact ⟨_, by rw [render, hmake]⟩
  -- A raster has an extent and three or four components, so the segment would be a picture.
  | ok r =>
    obtain ⟨⟨hwidth, hheight⟩, hcomponents, -⟩ :=
      Raster.make?_eq_ok_iff.1 ((Raster.ofFitting_eq_iff _).1 hmake)
    exact absurd ⟨mt toUInt32_eq_zero_iff.2 hwidth, mt toUInt32_eq_zero_iff.2 hheight,
      hcomponents⟩ h

/-! ## §2 Reading one segment -/

/-- A head has five bytes: two for each edge and one for the components. -/
theorem length_header : s.header.length = 5 := rfl

theorem length_toBytes : s.toBytes.length = 5 + s.pixels.length := by
  rw [toBytes, List.length_append, length_header]

/-- The head of a segment is read back as it was written. -/
theorem pull_header_append (content body : Bytes) :
    pull ⟨content, s.header ++ body⟩ =
      if maxPixelCount < pixelCount s.width s.height s.components then
        some (.error (.malformed "segment too large"), ⟨content, body⟩)
      else
        match Buffer.read? (pixelCount s.width s.height s.components) ⟨content, body⟩ with
        | some (pixels, b) => some (.ok ⟨s.width, s.height, s.components, pixels⟩, b)
        | none => some (.error cutOff, ⟨content, []⟩) := by
  cases hread : Buffer.read? (pixelCount s.width s.height s.components) ⟨content, body⟩ <;>
    simp only [pull, header, Bytes.ofWord16, List.cons_append, List.nil_append,
      Bytes.word16_ofWord16, hread]

/-- A whole segment is read, whatever follows it. -/
theorem pull_toBytes_append (hwf : s.WellFormed) (content rest : Bytes) :
    pull ⟨content, s.toBytes ++ rest⟩ = some (.ok s, ⟨content, rest⟩) := by
  obtain ⟨hcount, hmax⟩ := hwf
  have hread : Buffer.read? (pixelCount s.width s.height s.components)
      ⟨content, s.pixels ++ rest⟩ = some (s.pixels, ⟨content, rest⟩) := by
    rw [← hcount]
    simp [Buffer.read?]
  rw [toBytes, List.append_assoc, pull_header_append, if_neg (by omega), hread]

/-- Of less than a head nothing is read. -/
theorem pull_of_short {b : Buffer} (h : b.rest.length < 5) : pull b = none := by
  unfold pull
  -- Five bytes would be needed to read a head.
  split
  · next heq =>
    rw [heq] at h
    simp only [List.length_cons] at h
    omega
  · rfl

/-- A segment whose head is there and whose samples are not is an error of the file. -/
theorem pull_of_cut (hwf : s.WellFormed) (content : Bytes) {tail : Bytes}
    (htail : tail <+: s.toBytes) (hhead : 5 ≤ tail.length)
    (hcut : tail.length < s.toBytes.length) :
    ∃ b, pull ⟨content, tail⟩ = some (.error cutOff, b) := by
  obtain ⟨hcount, hmax⟩ := hwf
  -- What is left begins with the whole head, since it is long enough.
  obtain ⟨body, rfl⟩ : s.header <+: tail :=
    List.prefix_of_prefix_length_le (List.prefix_append _ _) htail (length_header.trans_le hhead)
  rw [List.length_append, length_header, length_toBytes] at hcut
  have hread : Buffer.read? (pixelCount s.width s.height s.components) ⟨content, body⟩ = none := by
    rw [← hcount]
    simp only [Buffer.read?, List.length_take]
    rw [if_neg (by omega)]
  exact ⟨⟨content, []⟩, by rw [pull_header_append, if_neg (by omega), hread]⟩

end Segment

/-! ## §3 Walking over whole segments -/

namespace SegmentFile

/-- The walk of the decoder from a place in a file on. -/
def walk (b : Buffer) (index : ℕ) : Logged (Walk.Ended Buffer Unit) :=
  Walk.run Segment.pull (fun s () => (s.render, ()))
    ⟨(b, ()), Walk.acc_of_measure (fun b => b.rest.length) Segment.pull_shrinks _⟩ index

/-- Behind its letters a file is walked over from the first segment on. -/
theorem value_decoder (body : Bytes) :
    (decoder (.ofBytes (magic ++ body))).value =
      (walk ⟨magic ++ body, body⟩ 0).value.found := rfl

variable {s : Segment} {content rest : Bytes} {index : ℕ}

/-- A picture ends the walk, and what follows it does not matter. -/
theorem found_walk_of_isPicture (hwf : s.WellFormed) (h : s.IsPicture) :
    (walk ⟨content, s.toBytes ++ rest⟩ index).value.found = s.render := by
  obtain ⟨r, hr, -⟩ := Segment.exists_render_eq_ok hwf h
  rw [walk, Walk.run_of_picture _ _ (Segment.pull_toBytes_append hwf content rest) hr, hr]
  rfl

theorem found_walk_of_not (hwf : s.WellFormed) (h : ¬ s.IsPicture) :
    (walk ⟨content, s.toBytes ++ rest⟩ index).value.found =
      (walk ⟨content, rest⟩ (index + 1)).value.found := by
  obtain ⟨e, he⟩ := Segment.exists_render_eq_error h
  rw [walk, Walk.run_of_reports _ _ (Segment.pull_toBytes_append hwf content rest) he
    (.failed e) (Walk.acc_of_measure (fun b => b.rest.length) Segment.pull_shrinks _)]
  rfl

/-- Whole segments are walked over up to the first picture among them; where there is none, it
    is up to what follows them. -/
theorem found_walk_flatMap {segments : List Segment} (hwf : ∀ s ∈ segments, s.WellFormed) :
    (walk ⟨content, segments.flatMap Segment.toBytes ++ rest⟩ index).value.found =
      match segments.find? (·.IsPicture) with
      | some s => s.render
      | none => (walk ⟨content, rest⟩ (index + segments.length)).value.found := by
  -- Each segment passed over counts, so the walk goes on with another index.
  induction segments generalizing index with
  | nil => rfl
  | cons s segments ih =>
    obtain ⟨hs, hsegments⟩ := List.forall_mem_cons.1 hwf
    rw [List.flatMap_cons, List.append_assoc]
    -- A picture ends the walk here; otherwise it is one segment further on.
    by_cases h : s.IsPicture
    · rw [found_walk_of_isPicture hs h, List.find?_cons_of_pos (by simpa using h)]
    · rw [found_walk_of_not hs h, ih hsegments, List.find?_cons_of_neg (by simpa using h),
        List.length_cons, Nat.add_right_comm, Nat.add_assoc]

/-- Less than a head ends the walk without a picture. -/
theorem found_walk_of_short (h : rest.length < 5) :
    (walk ⟨content, rest⟩ index).value.found = .ok none := by
  rw [walk, Walk.run_of_end _ _ (Segment.pull_of_short h)]
  rfl

/-- A head without all of its samples ends it with an error. -/
theorem found_walk_of_cut (hwf : s.WellFormed) (hrest : rest <+: s.toBytes)
    (hhead : 5 ≤ rest.length) (hcut : rest.length < s.toBytes.length) :
    (walk ⟨content, rest⟩ index).value.found = .error Segment.cutOff := by
  obtain ⟨b, hb⟩ := Segment.pull_of_cut hwf content hrest hhead hcut
  rw [walk, Walk.run_of_error _ _ hb]
  rfl

/-! ## §4 Cutting a file off -/

/-- What may be left behind whole segments where `later` stood: the beginning of the first of
    these, or nothing. -/
def IsRest (tail : Bytes) (later : List Segment) : Prop :=
  tail = [] ∨ ∃ s ∈ later.head?, tail <+: s.toBytes ∧ tail.length < s.toBytes.length

/-- What is left of segments that are cut off: some are whole, and the next is begun at most. -/
theorem exists_split {segments : List Segment} {body : Bytes}
    (h : body <+: segments.flatMap Segment.toBytes) :
    ∃ whole later tail, segments = whole ++ later ∧
      body = whole.flatMap Segment.toBytes ++ tail ∧ IsRest tail later := by
  induction segments generalizing body with
  | nil => exact ⟨[], [], [], rfl, List.prefix_nil.1 h, .inl rfl⟩
  | cons s segments ih =>
    rw [List.flatMap_cons] at h
    -- The cut is inside the first segment or behind it.
    rcases Nat.lt_or_ge body.length s.toBytes.length with hlt | hge
    · have hs : body <+: s.toBytes :=
        List.prefix_of_prefix_length_le h (List.prefix_append _ _) hlt.le
      exact ⟨[], s :: segments, body, rfl, rfl, .inr ⟨s, rfl, hs, hlt⟩⟩
    · obtain ⟨body', rfl⟩ : s.toBytes <+: body :=
        List.prefix_of_prefix_length_le (List.prefix_append _ _) h hge
      obtain ⟨whole, later, tail, rfl, rfl, htail⟩ := ih ((List.prefix_append_right_inj _).1 h)
      exact ⟨s :: whole, later, tail, rfl, by simp, htail⟩

theorem encode_append (whole later : List Segment) :
    encode (whole ++ later) = encode whole ++ later.flatMap Segment.toBytes := by
  simp [encode]

/-- What is found in whole segments and what is left behind them. -/
theorem value_decoder_append {whole later : List Segment} {tail : Bytes}
    (hwf : ∀ s ∈ whole ++ later, s.WellFormed) (h : IsRest tail later) :
    (decoder (.ofBytes (encode whole ++ tail))).value =
      match whole.find? (·.IsPicture) with
      | some s => s.render
      | none => if tail.length < 5 then .ok none else .error Segment.cutOff := by
  obtain ⟨hwhole, hlater⟩ := List.forall_mem_append.1 hwf
  rw [encode, List.append_assoc, value_decoder, found_walk_flatMap hwhole]
  cases whole.find? (·.IsPicture) with
  | some s => rfl
  | none =>
    -- Without a picture it depends on how much is left of the next segment.
    by_cases hshort : tail.length < 5
    · rw [if_pos hshort]
      exact found_walk_of_short hshort
    · rw [if_neg hshort]
      rcases h with rfl | ⟨s, hs, hpart, hcut⟩
      · exact absurd (by decide) hshort
      · exact found_walk_of_cut (hlater s (List.mem_of_mem_head? hs)) hpart
          (Nat.le_of_not_lt hshort) hcut

/-- The number of bytes of a file before the segment at a position. -/
def offset (segments : List Segment) (i : ℕ) : ℕ :=
  (encode (segments.take i)).length

theorem offset_mono (segments : List Segment) {i j : ℕ} (h : i ≤ j) :
    offset segments i ≤ offset segments j := by
  obtain ⟨between, hbetween⟩ := List.take_prefix_take_left (l := segments) h
  rw [offset, offset, ← hbetween, encode_append, List.length_append]
  exact Nat.le_add_right _ _

section Split

variable {whole later : List Segment} {tail : Bytes}

theorem offset_length : offset (whole ++ later) whole.length = (encode whole).length := by
  rw [offset, List.take_left]

/-- What is left ends before the first segment does that is not whole. -/
theorem length_lt_offset_succ (h : IsRest tail later) (hlater : later ≠ []) :
    (encode whole ++ tail).length < offset (whole ++ later) (whole.length + 1) := by
  obtain ⟨s, later, rfl⟩ := List.exists_cons_of_ne_nil hlater
  -- Of the next segment at least one byte is missing.
  have htail : tail.length < s.toBytes.length := by
    rcases h with rfl | ⟨s', hs, -, hcut⟩
    · rw [Segment.length_toBytes, List.length_nil]
      omega
    · obtain rfl : s = s' := Option.some.inj hs
      exact hcut
  have htake : (whole ++ s :: later).take (whole.length + 1) = whole ++ [s] := by
    rw [List.take_length_add_append, List.take_succ_cons, List.take_zero]
  rw [offset, htake, encode_append, List.flatMap_singleton, List.length_append, List.length_append]
  omega

/-- The segments that are whole are those that end within what is left. -/
theorem offset_succ_le_iff (h : IsRest tail later) {i : ℕ} (hi : i < (whole ++ later).length) :
    offset (whole ++ later) (i + 1) ≤ (encode whole ++ tail).length ↔ i < whole.length := by
  constructor
  · intro hle
    -- If this segment were not whole, neither would those behind it be.
    by_contra hge
    have hlater : later ≠ [] := by
      rintro rfl
      simp only [List.append_nil] at hi
      exact hge hi
    have hmono := offset_mono (whole ++ later) (Nat.succ_le_succ (Nat.le_of_not_lt hge))
    exact absurd (length_lt_offset_succ h hlater) (Nat.not_lt.2 (hmono.trans hle))
  · intro hlt
    calc offset (whole ++ later) (i + 1)
        ≤ offset (whole ++ later) whole.length := offset_mono _ hlt
      _ = (encode whole).length := offset_length
      _ ≤ (encode whole ++ tail).length := by
          rw [List.length_append]
          exact Nat.le_add_right _ _

/-- The cut went through the samples of a segment exactly if a head is left behind the whole
    ones. -/
theorem five_le_length_iff (h : IsRest tail later) :
    5 ≤ tail.length ↔ ∃ i < (whole ++ later).length,
      offset (whole ++ later) i + 5 ≤ (encode whole ++ tail).length ∧
        (encode whole ++ tail).length < offset (whole ++ later) (i + 1) := by
  constructor
  · intro hhead
    have hlater : later ≠ [] := by
      rintro rfl
      rcases h with rfl | ⟨s, hs, -⟩
      · exact absurd hhead (by decide)
      · cases hs
    -- The segment is the one behind the whole ones.
    refine ⟨whole.length, ?_, ?_, length_lt_offset_succ h hlater⟩
    · rw [List.length_append]
      exact Nat.lt_add_of_pos_right (List.length_pos_of_ne_nil hlater)
    · rw [offset_length, List.length_append]
      omega
  · rintro ⟨i, hi, hstart, hend⟩
    have hge : whole.length ≤ i :=
      Nat.le_of_not_lt fun hlt => absurd ((offset_succ_le_iff h hi).2 hlt) (Nat.not_le.2 hend)
    have hmono := offset_mono (whole ++ later) hge
    rw [offset_length] at hmono
    rw [List.length_append] at hstart
    omega

end Split

theorem find?_isPicture_eq_some {whole : List Segment} {s : Segment} {i : ℕ}
    (hi : whole[i]? = some s) (hs : s.IsPicture)
    (hfirst : ∀ j < i, ∀ s' ∈ whole[j]?, ¬ s'.IsPicture) :
    whole.find? (·.IsPicture) = some s := by
  obtain ⟨hlt, rfl⟩ := List.getElem?_eq_some_iff.1 hi
  refine List.find?_eq_some_iff_getElem.2 ⟨by simpa using hs, i, hlt, rfl, fun j hj => ?_⟩
  simpa using hfirst j hj whole[j] (List.getElem?_eq_getElem (hj.trans hlt))

theorem find?_isPicture_eq_none {whole : List Segment} (h : ∀ s ∈ whole, ¬ s.IsPicture) :
    whole.find? (·.IsPicture) = none :=
  List.find?_eq_none.2 fun s hs => by simpa using h s hs

/-- The whole file. -/
theorem value_decoder_encode {segments : List Segment} (hwf : ∀ s ∈ segments, s.WellFormed) :
    (decoder (.ofBytes (encode segments))).value =
      match segments.find? (·.IsPicture) with
      | some s => s.render
      | none => .ok none := by
  have h := @value_decoder_append segments [] [] (by simpa using hwf) (.inl rfl)
  rwa [List.append_nil] at h

/-- **Files that are cut off.** What is left of a file of segments is decoded, if it has the
    letters at the beginning, to the first picture among the segments that end within it, with
    the dimensions, the components and the samples of that segment. Where none of these is a
    picture, a cut through the samples of a segment is an error, and any other cut leaves
    nothing to be found. The whole file is decoded to the first picture in it. -/
theorem decoder_of_isPrefix {segments : List Segment} (hwf : ∀ s ∈ segments, s.WellFormed) :
    (∀ p : Bytes, p <+: encode segments → 4 ≤ p.length →
      let found := (decoder (.ofBytes p)).value
      (∀ i s, segments[i]? = some s → s.IsPicture → offset segments (i + 1) ≤ p.length →
        (∀ j < i, ∀ s' ∈ segments[j]?, ¬ s'.IsPicture) →
        ∃ r, found = .ok (some r) ∧ s.Shows r) ∧
      ((∀ i s, segments[i]? = some s → offset segments (i + 1) ≤ p.length → ¬ s.IsPicture) →
        (∀ i < segments.length,
          offset segments i + 5 ≤ p.length → p.length < offset segments (i + 1) →
            found = .error (.io "failed to fill whole buffer")) ∧
        ((∀ i < segments.length,
          ¬ (offset segments i + 5 ≤ p.length ∧ p.length < offset segments (i + 1))) →
            found = .ok none))) ∧
    (∀ s, segments.find? (·.IsPicture) = some s →
      ∃ r, (decoder (.ofBytes (encode segments))).value = .ok (some r) ∧ s.Shows r) ∧
    ((∀ s ∈ segments, ¬ s.IsPicture) →
      (decoder (.ofBytes (encode segments))).value = .ok none) := by
  refine ⟨fun p hp hmagic => ?_, ?_⟩
  · obtain ⟨body, rfl⟩ : magic <+: p :=
      List.prefix_of_prefix_length_le (List.prefix_append _ _) hp hmagic
    -- The cut splits the segments into whole ones and others.
    obtain ⟨whole, later, tail, rfl, rfl, htail⟩ :=
      exists_split ((List.prefix_append_right_inj _).1 hp)
    rw [← List.append_assoc, ← encode]
    have hvalue := value_decoder_append hwf htail
    intro found
    refine ⟨fun i s hi hs hend hfirst => ?_, fun hnone => ?_⟩
    -- A picture that ends within the part is whole, and so are those before it.
    · have hlt := (List.getElem?_eq_some_iff.1 hi).1
      rw [offset_succ_le_iff htail hlt] at hend
      have hfind : whole.find? (·.IsPicture) = some s := by
        refine find?_isPicture_eq_some ((List.getElem?_append_left hend).symm.trans hi) hs ?_
        intro j hj s' hs'
        refine hfirst j hj s' ?_
        rwa [List.getElem?_append_left (hj.trans hend)]
      obtain ⟨r, hr, hshows⟩ := Segment.exists_render_eq_ok (hwf s (List.mem_of_getElem? hi)) hs
      rw [hfind] at hvalue
      exact ⟨r, hvalue.trans hr, hshows⟩
    · have hfind : whole.find? (·.IsPicture) = none := by
        refine find?_isPicture_eq_none fun s hs => ?_
        obtain ⟨i, hi⟩ := List.mem_iff_getElem?.1 hs
        have hlt := (List.getElem?_eq_some_iff.1 hi).1
        have hi' : (whole ++ later)[i]? = some s := (List.getElem?_append_left hlt).trans hi
        exact hnone i s hi'
          ((offset_succ_le_iff htail (List.getElem?_eq_some_iff.1 hi').1).2 hlt)
      rw [hfind] at hvalue
      -- Without a picture the cut decides, by whether it left a head.
      refine ⟨fun i hi hstart hend => ?_, fun hcut => ?_⟩
      · have hhead := (five_le_length_iff htail).2 ⟨i, hi, hstart, hend⟩
        exact hvalue.trans (if_neg (Nat.not_lt.2 hhead))
      · have hshort : ¬ 5 ≤ tail.length := by
          rintro hhead
          obtain ⟨i, hi, hrange⟩ := (five_le_length_iff htail).1 hhead
          exact hcut i hi hrange
        exact hvalue.trans (if_pos (Nat.lt_of_not_le hshort))
  · have hvalue := value_decoder_encode hwf
    refine ⟨fun s hs => ?_, fun hnone => ?_⟩
    · obtain ⟨r, hr, hshows⟩ := Segment.exists_render_eq_ok
        (hwf s (List.mem_of_find?_eq_some hs)) (by simpa using List.find?_some hs)
      rw [hs] at hvalue
      exact ⟨r, hvalue.trans hr, hshows⟩
    · rw [find?_isPicture_eq_none hnone] at hvalue
      exact hvalue

/-- Behind a segment without an extent and one whose pixels have two samples stands a picture:
    it is found as soon as it is whole, a cut through its samples is an error, and after a cut
    through its head there is no picture. -/
theorem picture_found_when_whole :
    let grey : Segment := ⟨1, 1, 3, [7, 8, 9]⟩
    let segments : List Segment := [⟨0, 5, 3, []⟩, ⟨1, 1, 2, [1, 2]⟩, grey, ⟨1, 1, 4, [1, 2, 3, 4]⟩]
    let left (n : ℕ) : Bytes := (encode segments).take n
    (∀ s ∈ segments, s.WellFormed) ∧ (∀ n, left n <+: encode segments) ∧
      offset segments 2 = 16 ∧ offset segments 3 = 24 ∧
      (∃ r, (decoder (.ofBytes (left 26))).value = .ok (some r) ∧ grey.Shows r) ∧
      (decoder (.ofBytes (left 23))).value = .error (.io "failed to fill whole buffer") ∧
      (decoder (.ofBytes (left 20))).value = .ok none := by
  intro grey segments left
  have hwf : ∀ s ∈ segments, s.WellFormed := by decide
  have hleft : ∀ n, left n <+: encode segments := fun n => List.take_prefix _ _
  have hthree : offset segments 3 = 24 := by decide
  have hnone : ∀ n < 24, ∀ i s, segments[i]? = some s → offset segments (i + 1) ≤ (left n).length →
      ¬ s.IsPicture := by
    intro n hn i s hi hend
    have hlength : (left n).length ≤ n := List.length_take_le _ _
    rcases Nat.lt_or_ge i 2 with hlt | hge
    · obtain rfl | rfl : i = 0 ∨ i = 1 := by omega
      · cases hi
        decide
      · cases hi
        decide
    -- From the third segment on none is whole before byte 24.
    · have hmono : offset segments 3 ≤ offset segments (i + 1) :=
        offset_mono segments (Nat.succ_le_succ hge)
      omega
  obtain ⟨hcut, -, -⟩ := decoder_of_isPrefix hwf
  refine ⟨hwf, hleft, by decide, hthree, ?_, ?_, ?_⟩
  · exact (hcut (left 26) (hleft 26) (by decide)).1 2 grey rfl (by decide) (by decide)
      (by decide)
  · exact ((hcut (left 23) (hleft 23) (by decide)).2 (hnone 23 (by decide))).1 2 (by decide)
      (by decide) (by decide)
  · exact ((hcut (left 20) (hleft 20) (by decide)).2 (hnone 20 (by decide))).2 (by decide)

end SegmentFile

end Quicklook
