import Quicklook.Proofs.Metadata.Clean
import Quicklook.Proofs.Metadata.Entries

/-!
# Tables of codes in writing

A table can be written down in many ways: in any order, with either separator, with blanks around
every part of a line, with either line end, and with comments between the lines. All of them are
read as the same table.

What a way to write a table is, is said by relations between the parts of a table and texts
(`WritesCodes`, `WritesLine`, `Writes`); each of them has one lemma about the function that reads
such a text.

* `entryOf_of_writesLine`: a written line says what was written
* `entries_of_writes`: the entries of a written text are those that were written
* `ofText_of_writes`: a written table is read as the table it was
-/

namespace Quicklook

namespace CountryTable

/-! ## §1 Ways to write a table -/

/-- Blanks within a line. -/
def IsGap (s : List Char) : Prop :=
  ∀ c ∈ s, Text.isBlank c = true ∧ c ≠ '\n'

/-- A text is some other one with gaps around it. -/
def Spaced (s : String) (t : List Char) : Prop :=
  ∃ front back, IsGap front ∧ IsGap back ∧ t = front ++ s.toList ++ back

/-- A key that can be written. It may be empty. -/
structure IsKey (key : String) : Prop where
  free : ∀ c ∈ key.toList, ¬ IsSeparator c ∧ c ≠ '\n'
  head : ∀ c ∈ key.toList.head?, Text.isBlank c = false
  last : ∀ c ∈ key.toList.getLast?, Text.isBlank c = false
  noComment : ∀ c ∈ key.toList.head?, c ≠ '#' ∧ c ≠ '!'

/-- A code that can be written. It may contain separators. -/
structure IsCode (code : String) : Prop where
  clean : Text.IsClean code
  free : ∀ c ∈ code.toList, c ≠ ',' ∧ c ≠ '\n'

/-- A key and codes that can be written. -/
def IsWritable (e : String × List String) : Prop :=
  IsKey e.1 ∧ ∀ code ∈ e.2, IsCode code

-- The characters of a text are gone through one by one, so the instances are named: search may
-- find one that goes through all characters there are.
instance (s : List Char) : Decidable (IsGap s) :=
  List.decidableBAll _ s

instance (key : String) : Decidable (IsKey key) :=
  have : Decidable (∀ c ∈ key.toList, ¬ IsSeparator c ∧ c ≠ '\n') := List.decidableBAll _ _
  have : Decidable (∀ c ∈ key.toList.head?, Text.isBlank c = false) :=
    Option.decidableForallMem _
  have : Decidable (∀ c ∈ key.toList.getLast?, Text.isBlank c = false) :=
    Option.decidableForallMem _
  have : Decidable (∀ c ∈ key.toList.head?, c ≠ '#' ∧ c ≠ '!') := Option.decidableForallMem _
  decidable_of_iff
    ((∀ c ∈ key.toList, ¬ IsSeparator c ∧ c ≠ '\n') ∧
      (∀ c ∈ key.toList.head?, Text.isBlank c = false) ∧
      (∀ c ∈ key.toList.getLast?, Text.isBlank c = false) ∧
      ∀ c ∈ key.toList.head?, c ≠ '#' ∧ c ≠ '!')
    ⟨fun ⟨hfree, hhead, hlast, hcomment⟩ => ⟨hfree, hhead, hlast, hcomment⟩,
      fun h => ⟨h.free, h.head, h.last, h.noComment⟩⟩

instance (code : String) : Decidable (IsCode code) :=
  have : Decidable (∀ c ∈ code.toList, c ≠ ',' ∧ c ≠ '\n') := List.decidableBAll _ _
  decidable_of_iff (Text.IsClean code ∧ ∀ c ∈ code.toList, c ≠ ',' ∧ c ≠ '\n')
    ⟨fun ⟨hclean, hfree⟩ => ⟨hclean, hfree⟩, fun h => ⟨h.clean, h.free⟩⟩

instance (e : String × List String) : Decidable (IsWritable e) :=
  inferInstanceAs (Decidable (IsKey e.1 ∧ ∀ code ∈ e.2, IsCode code))

/-- A text writes codes: commas join them, and there are gaps around each. -/
inductive WritesCodes : List String → List Char → Prop
  | none {gap : List Char} (h : IsGap gap) : WritesCodes [] gap
  | one {code : String} {t : List Char} (h : Spaced code t) : WritesCodes [code] t
  | more {code : String} {codes : List String} {t rest : List Char} (h : Spaced code t)
      (hne : codes ≠ []) (hrest : WritesCodes codes rest) :
      WritesCodes (code :: codes) (t ++ ',' :: rest)

/-- A line writes an entry, or it is blank or a comment and writes nothing. -/
inductive WritesLine : Option (String × List String) → List Char → Prop
  | entry {key : String} {codes : List String} {t rest : List Char} {c : Char}
      (hkey : Spaced key t) (hc : IsSeparator c) (hcodes : WritesCodes codes rest) :
      WritesLine (some (key, codes)) (t ++ c :: rest)
  | blank {gap : List Char} (h : IsGap gap) : WritesLine none gap
  | comment {gap rest : List Char} {c : Char} (h : IsGap gap) (hc : c = '#' ∨ c = '!')
      (hrest : '\n' ∉ rest) : WritesLine none (gap ++ c :: rest)

/-- A text writes entries in their order, line by line. Its last line need not have an end. -/
inductive Writes : List (String × List String) → List Char → Prop
  | nil : Writes [] []
  | lastLine {e : Option (String × List String)} {line : List Char} (h : WritesLine e line) :
      Writes e.toList line
  | line {e : Option (String × List String)} {entries : List (String × List String)}
      {line ending text : List Char} (h : WritesLine e line)
      (hending : ending = ['\n'] ∨ ending = ['\r', '\n']) (htext : Writes entries text) :
      Writes (e.toList ++ entries) (line ++ ending ++ text)

/-! ## §2 Reading what was written -/

theorem IsSeparator.isBlank_eq_false {c : Char} (h : IsSeparator c) : Text.isBlank c = false := by
  rcases h with rfl | rfl <;> rfl

theorem IsGap.blank {gap : List Char} (h : IsGap gap) : ∀ c ∈ gap, Text.isBlank c = true :=
  fun c hc => (h c hc).1

theorem IsGap.newline_not_mem {gap : List Char} (h : IsGap gap) : '\n' ∉ gap :=
  fun hc => (h _ hc).2 rfl

theorem IsGap.not_mem {gap : List Char} (h : IsGap gap) {c : Char} (hc : Text.isBlank c = false) :
    c ∉ gap := by
  intro hmem
  simp [h.blank c hmem] at hc

theorem isGap_nil : IsGap [] := by
  intro c hc
  cases hc

theorem spaced_self (s : String) : Spaced s s.toList :=
  ⟨[], [], isGap_nil, isGap_nil, by simp⟩

/-- A character that is no blank is in a spaced text only if it is in the text itself. -/
theorem Spaced.mem_of_mem {s : String} {t : List Char} (h : Spaced s t) {c : Char} (hmem : c ∈ t)
    (hc : Text.isBlank c = false) : c ∈ s.toList := by
  obtain ⟨front, back, hfront, hback, rfl⟩ := h
  -- The gaps have blanks only.
  simpa [hfront.not_mem hc, hback.not_mem hc] using hmem

theorem Spaced.newline_not_mem {s : String} {t : List Char} (h : Spaced s t)
    (hs : '\n' ∉ s.toList) : '\n' ∉ t := by
  obtain ⟨front, back, hfront, hback, rfl⟩ := h
  simp [hfront.newline_not_mem, hback.newline_not_mem, hs]

/-- Trimming takes the gaps away and nothing else. -/
theorem Spaced.trim_eq {s : String} {t : List Char} (h : Spaced s t)
    (hhead : ∀ c, s.toList.head? = some c → Text.isBlank c = false)
    (hlast : ∀ c, s.toList.getLast? = some c → Text.isBlank c = false) :
    Text.trim t = s.toList := by
  obtain ⟨front, back, hfront, hback, rfl⟩ := h
  exact Text.trim_append hfront.blank hback.blank hhead hlast

/-- A comma ends the codes before it and begins those behind it. -/
theorem readCodes_append_comma (s t : List Char) :
    readCodes (s ++ ',' :: t) = readCodes s ++ readCodes t := by
  rw [readCodes, Text.pieces_append_cons, List.map_append, List.filter_append]
  rfl

theorem readCodes_of_not_mem {s : List Char} (h : ',' ∉ s) :
    readCodes s = [Text.trim s].filter (! ·.isEmpty) := by
  rw [readCodes, Text.pieces_of_not_mem h]
  rfl

theorem readCodes_of_spaced {code : String} {t : List Char} (h : Spaced code t) (hc : IsCode code) :
    readCodes t = [code.toList] := by
  -- A comma in the text would be one in the code.
  have hcomma : ',' ∉ t := fun hmem => (hc.free ',' (h.mem_of_mem hmem rfl)).1 rfl
  rw [readCodes_of_not_mem hcomma, h.trim_eq hc.clean.head hc.clean.last]
  simpa using hc.clean.ne_empty

/-- What blanks there are at the end does not matter to the codes. -/
theorem readCodes_trimEnd (s : List Char) : readCodes (Text.trimEnd s) = readCodes s := by
  by_cases hcomma : ',' ∈ s
  · -- Only the piece behind the last comma is trimmed.
    obtain ⟨a, b, rfl, hb⟩ : ∃ a b, s = a ++ ',' :: b ∧ ',' ∉ b := by
      obtain ⟨b, a, hs, hb⟩ := List.eq_append_cons_of_mem (List.mem_reverse.2 hcomma)
      exact ⟨a.reverse, b.reverse, by simpa using congrArg List.reverse hs, by simpa using hb⟩
    have htrim : ',' ∉ Text.trimEnd b := fun hmem => hb (Text.mem_of_mem_trimEnd hmem)
    rw [Text.trimEnd_append_cons (by decide), readCodes_append_comma, readCodes_append_comma,
      readCodes_of_not_mem htrim, readCodes_of_not_mem hb, Text.trim_trimEnd]
  · have htrim : ',' ∉ Text.trimEnd s := fun hmem => hcomma (Text.mem_of_mem_trimEnd hmem)
    rw [readCodes_of_not_mem htrim, readCodes_of_not_mem hcomma, Text.trim_trimEnd]

/-- The codes that were written are read, and nothing is read of blanks alone. -/
theorem readCodes_of_writesCodes {codes : List String} {t : List Char} (h : WritesCodes codes t)
    (hcodes : ∀ code ∈ codes, IsCode code) : readCodes t = codes.map String.toList := by
  induction h with
  | none hgap =>
    rw [readCodes_of_not_mem (hgap.not_mem rfl), Text.trim_eq_nil_iff.2 hgap.blank]
    rfl
  | one hcode => exact readCodes_of_spaced hcode (hcodes _ List.mem_cons_self)
  | more hcode _ _ ih =>
    rw [readCodes_append_comma, readCodes_of_spaced hcode (hcodes _ List.mem_cons_self),
      ih fun code hmem => hcodes code (List.mem_cons_of_mem _ hmem)]
    rfl

/-- A line need not be trimmed to see its entry: the first separator ends the key, and blanks at
    the two ends are trimmed with the key and with the last code. -/
theorem isEntry_append_cons {front rest : List Char} {c : Char} (hc : IsSeparator c)
    (hfront : ∀ d ∈ front, ¬ IsSeparator d)
    (hhead : ∀ d, (Text.trim front).head? = some d → d ≠ '#' ∧ d ≠ '!') :
    IsEntry (front ++ c :: rest) (String.ofList (Text.trim front))
      ((readCodes rest).map String.ofList) := by
  have hblank := hc.isBlank_eq_false
  refine ⟨Text.trimStart front, c, Text.trimEnd rest, Text.trim_append_cons hblank _ _, hc,
    fun d hd => hfront d ((List.dropWhile_sublist _).subset hd), fun d hd => ?_, ?_, ?_⟩
  -- With an empty key the line begins with the separator, which opens no comment either.
  · rw [Text.trim_append_cons hblank, List.head?_append, ← Text.head?_trim_eq] at hd
    cases hfirst : (Text.trim front).head? with
    | none =>
      obtain rfl : c = d := by simpa [hfirst] using hd
      rcases hc with rfl | rfl <;> decide
    | some e =>
      obtain rfl : e = d := by simpa [hfirst] using hd
      exact hhead e hfirst
  · rw [Text.trim_trimStart]
  · rw [lists_iff, readCodes_trimEnd]

/-- A written line says what was written. -/
theorem entryOf_of_writesLine {e : Option (String × List String)} {line : List Char}
    (h : WritesLine e line) (he : ∀ entry ∈ e, IsWritable entry) : entryOf line = e := by
  cases h with
  | @entry key codes t rest c hspaced hc hcodes =>
    obtain ⟨hkey, hcode⟩ := he _ rfl
    -- The separator that was written is the first one, since neither key nor gaps have any.
    have htrim : Text.trim t = key.toList := hspaced.trim_eq hkey.head hkey.last
    have hfree : ∀ d ∈ t, ¬ IsSeparator d := fun d hd hsep =>
      (hkey.free d (hspaced.mem_of_mem hd hsep.isBlank_eq_false)).1 hsep
    have hentry := @isEntry_append_cons t rest c hc hfree (by rw [htrim]; exact hkey.noComment)
    rw [htrim, readCodes_of_writesCodes hcodes hcode, List.map_map, String.ofList_toList] at hentry
    rw [entryOf_eq_some_iff]
    convert hentry
    simp [Function.comp_def]
  | blank hgap => exact entryOf_of_saysNothing (.inl (.inl (Text.trim_eq_nil_iff.2 hgap.blank)))
  | @comment gap rest c hgap hc hrest =>
    have hblank : Text.isBlank c = false := by rcases hc with rfl | rfl <;> rfl
    -- In front of the mark there are only blanks.
    have htrim : Text.trim (gap ++ c :: rest) = c :: Text.trimEnd rest := by
      rw [Text.trim_append_cons hblank, Text.trimStart, List.dropWhile_eq_nil_iff.2 hgap.blank]
      rfl
    exact entryOf_of_saysNothing (.inl (.inr ⟨c, by rw [htrim]; rfl, hc⟩))

theorem WritesCodes.newline_not_mem {codes : List String} {t : List Char} (h : WritesCodes codes t)
    (hcodes : ∀ code ∈ codes, IsCode code) : '\n' ∉ t := by
  induction h with
  | none hgap => exact hgap.newline_not_mem
  | one hcode =>
    exact hcode.newline_not_mem fun hmem => ((hcodes _ List.mem_cons_self).free _ hmem).2 rfl
  | more hcode _ _ ih =>
    have ht := hcode.newline_not_mem fun hmem =>
      ((hcodes _ List.mem_cons_self).free _ hmem).2 rfl
    have hrest := ih fun code hmem => hcodes code (List.mem_cons_of_mem _ hmem)
    simp [ht, hrest]

theorem WritesLine.newline_not_mem {e : Option (String × List String)} {line : List Char}
    (h : WritesLine e line) (he : ∀ entry ∈ e, IsWritable entry) : '\n' ∉ line := by
  cases h with
  | entry hspaced hc hcodes =>
    obtain ⟨hkey, hcode⟩ := he _ rfl
    have ht := hspaced.newline_not_mem fun hmem => (hkey.free _ hmem).2 rfl
    have hrest := hcodes.newline_not_mem hcode
    rcases hc with rfl | rfl <;> simp [ht, hrest]
  | blank hgap => exact hgap.newline_not_mem
  | comment hgap hc hrest =>
    have ht := hgap.newline_not_mem
    rcases hc with rfl | rfl <;> simp [ht, hrest]

theorem entries_of_not_mem {line : List Char} (h : '\n' ∉ line) :
    entries line = (entryOf line).toList := by
  rw [entries_eq_pieces, Text.pieces_of_not_mem h]
  cases hline : entryOf line with
  | none => simp [hline]
  | some e => simp [hline]

/-- The end of a line is no part of what it says. -/
theorem entries_line {line ending : List Char} (h : '\n' ∉ line)
    (hending : ending = ['\n'] ∨ ending = ['\r', '\n']) (text : List Char) :
    entries (line ++ ending ++ text) = (entryOf line).toList ++ entries text := by
  rcases hending with rfl | rfl
  · rw [List.append_assoc, List.singleton_append, entries_append, entries_of_not_mem h]
  · -- The carriage return stays with the line, where it is a blank at the end.
    have hreturn : '\n' ∉ line ++ ['\r'] := by simpa using h
    have hsplit : line ++ ['\r', '\n'] ++ text = (line ++ ['\r']) ++ '\n' :: text := by simp
    rw [hsplit, entries_append, entries_of_not_mem hreturn,
      entryOf_congr (Text.trim_append_blanks (List.forall_mem_singleton.2 rfl) line)]

/-- The entries of a written text are those that were written, in their order. -/
theorem entries_of_writes {written : List (String × List String)} {text : List Char}
    (h : Writes written text) (hwritable : ∀ e ∈ written, IsWritable e) :
    entries text = written := by
  induction h with
  | nil => rfl
  | lastLine hline =>
    have he := fun e he => hwritable e (Option.mem_toList.2 he)
    rw [entries_of_not_mem (hline.newline_not_mem he), entryOf_of_writesLine hline he]
  | line hline hending _ ih =>
    have he := fun e he => hwritable e (List.mem_append_left _ (Option.mem_toList.2 he))
    rw [entries_line (hline.newline_not_mem he) hending, entryOf_of_writesLine hline he,
      ih fun e hmem => hwritable e (List.mem_append_right _ hmem)]

/-! ## §3 The order of entries -/

/-- Among pairs with distinct keys the last one with a key is the only one. -/
theorem last_eq_some_iff {pairs : List (String × List String)} (h : (pairs.map Prod.fst).Nodup)
    {key : String} {codes : List String} :
    last key pairs = some codes ↔ (key, codes) ∈ pairs := by
  constructor
  · intro hlast
    obtain ⟨e, he, rfl⟩ := Option.map_eq_some_iff.1 hlast
    obtain ⟨hmem, hkey⟩ := List.mem_filter.1 (List.mem_of_getLast? he)
    obtain rfl : e.1 = key := by simpa using hkey
    exact hmem
  · intro hmem
    obtain ⟨before, after, rfl⟩ := List.append_of_mem hmem
    -- No pair behind has this key.
    have hafter : last key after = none := by
      rw [last_eq_none_iff]
      rintro e he rfl
      simp only [List.map_append, List.map_cons, List.nodup_append, List.nodup_cons] at h
      exact h.2.1.1 (List.mem_map_of_mem he)
    rw [← List.singleton_append, last_append, last_append, hafter]
    simp [last]

/-- With distinct keys, the order of the pairs does not matter. -/
theorem ofList_perm {pairs written : List (String × List String)}
    (h : (pairs.map Prod.fst).Nodup) (hperm : written.Perm pairs) :
    ofList written = ofList pairs := by
  have hwritten : (written.map Prod.fst).Nodup := (hperm.map Prod.fst).nodup_iff.2 h
  -- Which pairs there are does not depend on their order.
  refine ofList_congr fun key => Option.ext fun codes => ?_
  rw [last_eq_some_iff hwritten, last_eq_some_iff h, hperm.mem_iff]

/-! ## §4 Writing and reading -/

theorem exists_writesCodes (codes : List String) : ∃ t, WritesCodes codes t := by
  induction codes with
  | nil => exact ⟨[], .none isGap_nil⟩
  | cons code codes ih =>
    obtain ⟨t, ht⟩ := ih
    -- The last code has no comma behind it.
    by_cases hne : codes = []
    · exact hne ▸ ⟨code.toList, .one (spaced_self code)⟩
    · exact ⟨code.toList ++ ',' :: t, .more (spaced_self code) hne ht⟩

/-- Everything can be written down. -/
theorem exists_writes (written : List (String × List String)) : ∃ text, Writes written text := by
  induction written with
  | nil => exact ⟨[], .nil⟩
  | cons e written ih =>
    obtain ⟨codes, hcodes⟩ := exists_writesCodes e.2
    obtain ⟨text, htext⟩ := ih
    exact ⟨_, .line (.entry (spaced_self e.1) (.inl rfl) hcodes) (.inl rfl) htext⟩

/-- A table with distinct keys, written in any order and in any of the ways, is read as the table
    of its pairs: every key has its codes in their order, and there are no other keys. -/
theorem ofText_of_writes {pairs written : List (String × List String)}
    (hdistinct : (pairs.map Prod.fst).Nodup) (hwritable : ∀ e ∈ pairs, IsWritable e)
    (horder : written.Perm pairs) :
    (∃ text : String, Writes written text.toList) ∧
      ∀ text : String, Writes written text.toList →
        (ofText text).value = ofList pairs ∧
          ∀ (key : String) (codes : List String),
            (ofText text).value.codes[key]? = some codes ↔ (key, codes) ∈ pairs := by
  constructor
  · obtain ⟨text, htext⟩ := exists_writes written
    exact ⟨String.ofList text, by rwa [String.toList_ofList]⟩
  · intro text htext
    have hread : (ofText text).value = ofList pairs := by
      rw [value_ofText, entries_of_writes htext fun e he => hwritable e (horder.subset he),
        ofList_perm hdistinct horder]
    exact ⟨hread, fun key codes => by rw [hread, getElem?_ofList, last_eq_some_iff hdistinct]⟩

/-- A comment, blanks of two kinds, both separators and line ends, a code with a separator in it
    and a key without codes. -/
theorem spaced_table_is_read :
    (ofText "# two\r\n WE\t: PSE , I=R\r\nGM =").value =
      ofList [("GM", []), ("WE", ["PSE", "I=R"])] := by
  have hspace : IsGap [' '] := by decide +kernel
  have htab : IsGap ['\t'] := by decide +kernel
  have hpse : Spaced "PSE" " PSE ".toList := ⟨[' '], [' '], hspace, hspace, rfl⟩
  have hir : Spaced "I=R" " I=R".toList := ⟨[' '], [], hspace, isGap_nil, rfl⟩
  have hwe : Spaced "WE" " WE\t".toList := ⟨[' '], ['\t'], hspace, htab, rfl⟩
  have hgm : Spaced "GM" "GM ".toList := ⟨[], [' '], isGap_nil, hspace, rfl⟩
  have hcomment : WritesLine none "# two".toList :=
    @WritesLine.comment [] " two".toList '#' isGap_nil (.inl rfl) (by decide)
  have hfirst : WritesLine (some ("WE", ["PSE", "I=R"])) " WE\t: PSE , I=R".toList :=
    .entry hwe (.inr rfl) (.more hpse (by decide) (.one hir))
  have hsecond : WritesLine (some ("GM", [])) "GM =".toList :=
    .entry hgm (.inl rfl) (.none isGap_nil)
  have htext : Writes [("WE", ["PSE", "I=R"]), ("GM", [])]
      "# two\r\n WE\t: PSE , I=R\r\nGM =".toList :=
    .line hcomment (.inr rfl) (.line hfirst (.inr rfl) (.lastLine hsecond))
  exact ((@ofText_of_writes [("GM", []), ("WE", ["PSE", "I=R"])] _ (by decide) (by decide +kernel)
    (.swap ..)).2 _ htext).1

end CountryTable

end Quicklook
