import Mathlib.Data.List.Basic
import Quicklook.Metadata.Country
import Quicklook.Proofs.Text.Trimming

/-!
# Entries of a table of codes

A table of codes is read line by line, and a line can say one thing only: which codes a key has.
So a text is as good as the list of its entries, in order, and the table has for each key what
the last entry with this key lists. Everything else about lines, where they are cut, what is
blank, which of them are comments, is settled once, where a line is shown to be an entry.

* `entryOf_eq_some_iff`: which lines are entries, for which key and with which codes
* `value_ofText`: the table of a text is the table of its entries
* `getElem?_ofList`: the last pair with a key counts
* `ofText_last_entry`: what is looked up, how many keys there are, and which changes of a text
  do not change its table
-/

namespace Quicklook

namespace Text

/-- Cutting at every separator is what the library's lists do. -/
theorem pieces_eq_splitOn (sep : Char) (s : List Char) : pieces sep s = s.splitOn sep := by
  induction s with
  | nil => rfl
  | cons c s ih =>
    rw [List.splitOn_cons_eq_if_modifyHead, ← ih, pieces]
    cases h : pieces sep s with
    | nil => exact absurd h (pieces_ne_nil sep s)
    | cons t ts => by_cases hc : c = sep <;> simp [hc]

/-- Pieces without the separator are found again after they were joined. -/
theorem pieces_intercalate {sep : Char} {ps : List (List Char)} (hne : ps ≠ [])
    (h : ∀ p ∈ ps, sep ∉ p) : pieces sep (List.intercalate [sep] ps) = ps := by
  rw [pieces_eq_splitOn, List.splitOn_intercalate sep h hne]

theorem pieces_of_not_mem {sep : Char} {s : List Char} (h : sep ∉ s) : pieces sep s = [s] := by
  simpa using pieces_intercalate (List.cons_ne_nil s []) (by simpa using h)

theorem not_mem_of_mem_pieces {sep : Char} {s p : List Char} (h : p ∈ pieces sep s) : sep ∉ p := by
  -- A character goes to the front of the first piece unless it is the separator.
  induction s generalizing p with
  | nil =>
    obtain rfl := List.mem_singleton.1 h
    exact List.not_mem_nil
  | cons c s ih =>
    rw [pieces] at h
    cases hs : pieces sep s with
    | nil => exact absurd hs (pieces_ne_nil sep s)
    | cons t ts =>
      simp only [hs] at h ih
      split at h
      · rcases List.mem_cons.1 h with rfl | h
        · exact List.not_mem_nil
        · exact ih h
      · next hc =>
        rcases List.mem_cons.1 h with rfl | h
        · exact fun hmem => (List.mem_cons.1 hmem).elim (fun he => hc he.symm)
            (ih List.mem_cons_self)
        · exact ih (List.mem_cons_of_mem _ h)

/-- A separator ends the pieces before it. -/
theorem pieces_append_cons (sep : Char) (a b : List Char) :
    pieces sep (a ++ sep :: b) = pieces sep a ++ pieces sep b := by
  simp only [pieces_eq_splitOn, List.splitOn_append_cons_self]

end Text

namespace CountryTable

/-! ## §1 Lines -/

/-- The characters that end a key. -/
def IsSeparator (c : Char) : Prop :=
  c = '=' ∨ c = ':'

instance : DecidablePred IsSeparator := fun c =>
  inferInstanceAs (Decidable (c = '=' ∨ c = ':'))

/-- A text lists codes: it is cut at its commas, and the codes are the pieces that are not
    blank, trimmed. -/
def Lists (s : List Char) (codes : List String) : Prop :=
  ∃ ps : List (List Char), ps ≠ [] ∧ (∀ p ∈ ps, ',' ∉ p) ∧ s = List.intercalate [','] ps ∧
    codes = (ps.map fun p => String.ofList (Text.trim p)).filter (· ≠ "")

/-- A line is an entry: trimmed, it is no comment, the first separator in it ends the key, and
    what follows that lists the codes. -/
def IsEntry (line : List Char) (key : String) (codes : List String) : Prop :=
  ∃ front c rest, Text.trim line = front ++ c :: rest ∧ IsSeparator c ∧
    (∀ d ∈ front, ¬ IsSeparator d) ∧ (∀ d ∈ (Text.trim line).head?, d ≠ '#' ∧ d ≠ '!') ∧
    key = String.ofList (Text.trim front) ∧ Lists rest codes

/-- A line is an entry for a key. -/
def IsEntryFor (line : List Char) (key : String) : Prop :=
  ∃ codes, IsEntry line key codes

/-- The entry that a line is, if it is one. -/
def entryOf (line : List Char) : Option (String × List String) :=
  match readLine line with
  | .entry key codes => some (String.ofList key, codes.map String.ofList)
  | .blank | .unreadable _ => none

/-- Codes as texts: blank pieces are left out, whether that is seen before or after. -/
theorem map_readCodes (s : List Char) :
    (readCodes s).map String.ofList =
      ((Text.pieces ',' s).map fun p => String.ofList (Text.trim p)).filter (· ≠ "") := by
  rw [readCodes]
  induction Text.pieces ',' s with
  | nil => rfl
  | cons p ps ih =>
    by_cases hp : Text.trim p = []
    · simpa [hp] using ih
    · simpa [hp] using ih

/-- A text lists the codes that are read from it, and no others. -/
theorem lists_iff {s : List Char} {codes : List String} :
    Lists s codes ↔ codes = (readCodes s).map String.ofList := by
  constructor
  · rintro ⟨ps, hne, hcomma, rfl, rfl⟩
    rw [map_readCodes, Text.pieces_intercalate hne hcomma]
  · rintro rfl
    exact ⟨Text.pieces ',' s, Text.pieces_ne_nil _ _, fun p => Text.not_mem_of_mem_pieces,
      (Text.pieces_eq_splitOn ',' s ▸ List.intercalate_splitOn ',').symm, map_readCodes s⟩

/-- A line that is blank or a comment. -/
def IsRemark (line : List Char) : Prop :=
  Text.trim line = [] ∨ ∃ c ∈ (Text.trim line).head?, c = '#' ∨ c = '!'

theorem readLine_of_isRemark {line : List Char} (h : IsRemark line) : readLine line = .blank := by
  unfold readLine
  rcases h with hnil | ⟨c, hc, hmark⟩
  · rw [hnil]
  · obtain ⟨s, hs⟩ := List.head?_eq_some_iff.1 hc
    rw [hs]
    rcases hmark with rfl | rfl <;> rfl

/-- Any other line is cut at its first separator, and without one it cannot be read. -/
theorem readLine_of_not_isRemark {line : List Char} (h : ¬ IsRemark line) :
    readLine line =
      match Text.cutAt (fun c => c == '=' || c == ':') (Text.trim line) with
      | none => .unreadable (Text.trim line)
      | some (key, codes) => .entry (Text.trim key) (readCodes codes) := by
  unfold readLine
  simp only
  -- The three remarks that the reader knows, and everything else.
  split
  · next hnil => exact absurd (.inl hnil) h
  · next hs => exact absurd (.inr ⟨'#', by rw [hs]; rfl, .inl rfl⟩) h
  · next hs => exact absurd (.inr ⟨'!', by rw [hs]; rfl, .inr rfl⟩) h
  · rfl

theorem isSeparator_iff {c : Char} : IsSeparator c ↔ (c == '=' || c == ':') = true := by
  simp [IsSeparator]

theorem not_isSeparator_iff {c : Char} : ¬ IsSeparator c ↔ (c == '=' || c == ':') = false := by
  rw [isSeparator_iff, Bool.not_eq_true]

theorem IsEntry.not_isRemark {line : List Char} {key : String} {codes : List String}
    (h : IsEntry line key codes) : ¬ IsRemark line := by
  obtain ⟨front, c, rest, htrim, -, -, hhead, -⟩ := h
  rintro (hnil | ⟨d, hd, hmark⟩)
  · simp [hnil] at htrim
  · exact hmark.elim (hhead d hd).1 (hhead d hd).2

/-- Which lines are read as entries, for which key and with which codes. -/
theorem entryOf_eq_some_iff {line : List Char} {key : String} {codes : List String} :
    entryOf line = some (key, codes) ↔ IsEntry line key codes := by
  by_cases hremark : IsRemark line
  · have hnone : entryOf line = none := by rw [entryOf, readLine_of_isRemark hremark]
    exact iff_of_false (by simp [hnone]) fun h => h.not_isRemark hremark
  · rw [entryOf, readLine_of_not_isRemark hremark]
    constructor
    · intro h
      -- The cut is at the first separator, which is what makes the key unique.
      cases hcut : Text.cutAt (fun c => c == '=' || c == ':') (Text.trim line) with
      | none => simp [hcut] at h
      | some parts =>
        obtain ⟨front, rest⟩ := parts
        simp only [hcut, Option.some.injEq, Prod.mk.injEq] at h
        obtain ⟨rfl, rfl⟩ := h
        obtain ⟨c, hc, htrim⟩ := Text.eq_append_of_cutAt hcut
        refine ⟨front, c, rest, htrim, isSeparator_iff.2 hc,
          fun d hd => not_isSeparator_iff.2 (Text.not_mem_of_cutAt hcut d hd), fun d hd => ?_, rfl,
          lists_iff.2 rfl⟩
        exact not_or.1 fun hmark => hremark (.inr ⟨d, hd, hmark⟩)
    · rintro ⟨front, c, rest, htrim, hc, hfront, -, rfl, hcodes⟩
      rw [htrim, Text.cutAt_append_cons (fun d hd => not_isSeparator_iff.1 (hfront d hd))
        (isSeparator_iff.1 hc), lists_iff.1 hcodes]

/-- A line that is blank, a comment or without a separator. -/
def SaysNothing (line : List Char) : Prop :=
  IsRemark line ∨ ∀ c ∈ line, ¬ IsSeparator c

theorem entryOf_of_saysNothing {line : List Char} (h : SaysNothing line) : entryOf line = none := by
  rw [Option.eq_none_iff_forall_ne_some]
  rintro ⟨key, codes⟩ hentry
  have hline := entryOf_eq_some_iff.1 hentry
  rcases h with hremark | hsep
  · exact hline.not_isRemark hremark
  · obtain ⟨front, c, rest, htrim, hc, -⟩ := hline
    exact hsep c (Text.mem_of_mem_trim (by simp [htrim])) hc

theorem isEntryFor_iff {line : List Char} {key : String} :
    IsEntryFor line key ↔ (entryOf line).map Prod.fst = some key := by
  simp only [IsEntryFor, ← entryOf_eq_some_iff]
  cases entryOf line with
  | none => simp
  | some e => simp [Prod.ext_iff]

instance (line : List Char) (key : String) : Decidable (IsEntryFor line key) :=
  decidable_of_iff _ isEntryFor_iff.symm

/-- Blanks around a line do not matter, nor does a carriage return at its end. -/
theorem entryOf_congr {line line' : List Char} (h : Text.trim line = Text.trim line') :
    entryOf line = entryOf line' := by
  simp only [entryOf, readLine, h]

/-- A carriage return at the end is a blank like others. -/
theorem entryOf_dropReturn (line : List Char) : entryOf (Text.dropReturn line) = entryOf line := by
  rw [Text.dropReturn]
  split
  · next hlast =>
    obtain ⟨front, rfl⟩ := List.getLast?_eq_some_iff.1 hlast
    rw [List.dropLast_concat]
    exact entryOf_congr (Text.trim_append_blanks (List.forall_mem_singleton.2 rfl) front).symm
  · rfl

/-! ## §2 Texts -/

/-- The entries of a text, in order. -/
def entries (s : List Char) : List (String × List String) :=
  (Text.lines s).filterMap entryOf

/-- It does not matter to the entries how a line ends. -/
theorem entries_eq_pieces (s : List Char) :
    entries s = (Text.pieces '\n' s).filterMap entryOf := by
  obtain ⟨front, last, hps⟩ : ∃ front last, Text.pieces '\n' s = front ++ [last] :=
    ⟨_, _, (List.dropLast_append_getLast (Text.pieces_ne_nil '\n' s)).symm⟩
  have hfront : (front.map Text.dropReturn).filterMap entryOf = front.filterMap entryOf := by
    rw [List.filterMap_map]
    exact List.filterMap_congr fun line _ => entryOf_dropReturn line
  simp only [entries, Text.lines, hps, List.dropLast_concat, List.getLast?_concat]
  -- An empty piece at the end is no line, but as a line it would say nothing either.
  cases last with
  | nil =>
    have hnil : entryOf [] = none := rfl
    simp [hfront, hnil]
  | cons c last => simp [hfront]

/-- The entries of a text are those of its first part and those of its second part. -/
theorem entries_append (a b : List Char) : entries (a ++ '\n' :: b) = entries a ++ entries b := by
  simp only [entries_eq_pieces, Text.pieces_append_cons, List.filterMap_append]

theorem value_enterLines (t : CountryTable) (number : ℕ) (lines : List (List Char)) :
    (t.enterLines number lines).value =
      (lines.filterMap entryOf).foldl (fun t e => t.insert e.1 e.2) t := by
  induction lines generalizing t number with
  | nil => rfl
  | cons line lines ih =>
    -- A line that cannot be read is reported, and the table stays as it is.
    rw [enterLines, Journal.value_bind, ih, List.filterMap_cons, entryOf]
    cases readLine line <;> rfl

/-- The table of a text is the table of its entries. -/
theorem value_ofText (text : String) : (ofText text).value = ofList (entries text.toList) :=
  value_enterLines _ _ _

/-! ## §3 The last one counts -/

/-- What the last pair with a key says. -/
def last (key : String) (pairs : List (String × List String)) : Option (List String) :=
  (pairs.filter (·.1 = key)).getLast?.map Prod.snd

theorem last_append (key : String) (a b : List (String × List String)) :
    last key (a ++ b) = (last key b).or (last key a) := by
  rw [last, List.filter_append, List.getLast?_append, Option.map_or]
  rfl

theorem last_eq_none_iff {key : String} {pairs : List (String × List String)} :
    last key pairs = none ↔ ∀ e ∈ pairs, e.1 ≠ key := by
  simp [last]

theorem getElem?_insert (t : CountryTable) (key : String) (codes : List String) (other : String) :
    (t.insert key codes).codes[other]? = if key = other then some codes else t.codes[other]? := by
  rw [insert, Std.ExtTreeMap.getElem?_insert]
  by_cases h : key = other <;> simp [h]

/-- Entering pairs one after another, what is there before counts only for keys without a pair. -/
theorem getElem?_foldl_insert (t : CountryTable) (pairs : List (String × List String))
    (key : String) :
    (pairs.foldl (fun t e => t.insert e.1 e.2) t).codes[key]? =
      (last key pairs).or t.codes[key]? := by
  induction pairs generalizing t with
  | nil => rfl
  | cons e pairs ih =>
    -- The first pair is entered first, so it counts least.
    rw [List.foldl_cons, ih, getElem?_insert, ← List.singleton_append, last_append, Option.or_assoc]
    by_cases h : e.1 = key <;> simp [last, h]

/-- What a table has for a key is what the last pair with this key says. -/
theorem getElem?_ofList (pairs : List (String × List String)) (key : String) :
    (ofList pairs).codes[key]? = last key pairs := by
  rw [ofList, getElem?_foldl_insert, empty]
  simp

theorem eq_of_getElem?_eq {t u : CountryTable} (h : ∀ key : String, t.codes[key]? = u.codes[key]?) :
    t = u := by
  cases t
  cases u
  exact congrArg CountryTable.mk (Std.ExtTreeMap.ext_getElem? h)

/-- Tables of pairs are equal when for each key the last pair says the same. -/
theorem ofList_congr {pairs pairs' : List (String × List String)}
    (h : ∀ key, last key pairs = last key pairs') : ofList pairs = ofList pairs' :=
  eq_of_getElem?_eq fun key => by rw [getElem?_ofList, getElem?_ofList, h]

/-! ## §4 Lines and tables -/

/-- The last of the lines that are entries for a key lists codes. -/
def EndsIn (lines : List (List Char)) (key : String) (codes : List String) : Prop :=
  ∃ before line after, lines = before ++ line :: after ∧ IsEntry line key codes ∧
    ∀ later ∈ after, ¬ IsEntryFor later key

variable {lines : List (List Char)} {key : String} {codes : List String}

theorem last_filterMap_eq_none_iff :
    last key (lines.filterMap entryOf) = none ↔ ∀ line ∈ lines, ¬ IsEntryFor line key := by
  simp only [last_eq_none_iff, List.forall_mem_filterMap, isEntryFor_iff, Option.map_eq_some_iff,
    not_exists, not_and]

theorem last_of_endsIn (h : EndsIn lines key codes) :
    last key (lines.filterMap entryOf) = some codes := by
  obtain ⟨before, line, after, rfl, hline, hafter⟩ := h
  rw [List.filterMap_append, List.filterMap_cons_some (entryOf_eq_some_iff.2 hline),
    ← List.singleton_append, last_append, last_append, last_filterMap_eq_none_iff.2 hafter]
  simp [last]

/-- Among lines with an entry for a key there is a last one. -/
theorem exists_endsIn (h : ∃ line ∈ lines, IsEntryFor line key) :
    ∃ codes, EndsIn lines key codes := by
  induction lines with
  | nil => simp at h
  | cons line lines ih =>
    -- The first line is the last entry only if no later one is an entry.
    by_cases hlater : ∃ later ∈ lines, IsEntryFor later key
    · obtain ⟨codes, before, last, after, rfl, hlast⟩ := ih hlater
      exact ⟨codes, line :: before, last, after, rfl, hlast⟩
    -- No later line is one, so the first line must be.
    · obtain ⟨first, hmem, codes, hfirst⟩ := h
      rcases List.mem_cons.1 hmem with rfl | hmem
      · exact ⟨codes, [], first, lines, rfl, hfirst, fun later hl hf => hlater ⟨later, hl, hf⟩⟩
      · exact absurd ⟨first, hmem, codes, hfirst⟩ hlater

/-- The last line that is an entry for a key decides, whatever the earlier ones say. -/
theorem last_filterMap_eq_some_iff :
    last key (lines.filterMap entryOf) = some codes ↔ EndsIn lines key codes := by
  refine ⟨fun h => ?_, last_of_endsIn⟩
  -- There is a last entry, and it can only list what was found.
  have hsome : ∃ line ∈ lines, IsEntryFor line key := by
    by_contra hnone
    simp only [not_exists, not_and] at hnone
    simp [last_filterMap_eq_none_iff.2 hnone] at h
  obtain ⟨codes', hends⟩ := exists_endsIn hsome
  obtain rfl : codes' = codes := Option.some.inj ((last_of_endsIn hends).symm.trans h)
  exact hends

/-- The entries for a key come from the lines for that key. -/
theorem filter_filterMap_entryOf :
    (lines.filterMap entryOf).filter (·.1 = key) =
      (lines.filter (IsEntryFor · key)).filterMap entryOf := by
  rw [List.filter_filterMap, List.filterMap_filter]
  refine List.filterMap_congr fun line _ => ?_
  simp only [isEntryFor_iff]
  cases entryOf line with
  | none => simp
  | some e => by_cases he : e.1 = key <;> simp [he]

/-- What is resolved depends on the line that decides, in each of the three ways. -/
theorem single_ofText (text : String) {code : String} (hcode : code ≠ "") :
    (ofText text).value.resolve.single code =
      match last code (entries text.toList) with
      | none | some [] => .ok none
      | some [x] => .ok (some x)
      | some codes => .error ⟨code, codes⟩ := by
  rw [CountryResolver.single, if_neg hcode, resolve, value_ofText, getElem?_ofList]
  rcases last code (entries text.toList) with _ | _ | ⟨x, _ | ⟨y, rest⟩⟩ <;> rfl

theorem mem_codes_iff {t : CountryTable} : key ∈ t.codes ↔ t.codes[key]? ≠ none := by
  rw [Std.ExtTreeMap.mem_iff_isSome_getElem?, Option.isSome_iff_ne_none]

/-- The keys of a table of a text are those that have an entry there. -/
theorem mem_ofText_iff {text : String} :
    key ∈ (ofText text).value.codes ↔ ∃ line ∈ Text.lines text.toList, IsEntryFor line key := by
  rw [mem_codes_iff, value_ofText, getElem?_ofList, entries, ne_eq, last_filterMap_eq_none_iff]
  simp

/-- Lines that say the same for each key, in the same order, give the same table. -/
theorem ofText_congr {a b : String}
    (h : ∀ key, last key (entries a.toList) = last key (entries b.toList)) :
    (ofText a).value = (ofText b).value := by
  rw [value_ofText, value_ofText, ofList_congr h]

/-- Of all lines of a text, those that are the last entries of their keys make up the table: what a
    code resolves to is decided by the last entry for it, as a whole, and there are as many keys as
    have an entry. A text behind another one overrides it key by key. So the order matters among
    lines with the same key only, and lines that say nothing may stand anywhere. -/
theorem ofText_last_entry (a b : String) :
    (∀ code ≠ "",
      ((ofText a).value.resolve.single code = .ok none ↔
        (∀ line ∈ Text.lines a.toList, ¬ IsEntryFor line code) ∨
          EndsIn (Text.lines a.toList) code []) ∧
      (∀ x, (ofText a).value.resolve.single code = .ok (some x) ↔
        EndsIn (Text.lines a.toList) code [x]) ∧
      (∀ e, (ofText a).value.resolve.single code = .error e ↔
        ∃ codes, EndsIn (Text.lines a.toList) code codes ∧ 2 ≤ codes.length ∧
          e = ⟨code, codes⟩)) ∧
    (∃ keys : List String, keys.Nodup ∧
      (∀ key, key ∈ keys ↔ ∃ line ∈ Text.lines a.toList, IsEntryFor line key) ∧
      (ofText a).value.size = keys.length) ∧
    (∀ key : String, (ofText (a ++ "\n" ++ b)).value.codes[key]? =
      (ofText b).value.codes[key]?.or (ofText a).value.codes[key]?) ∧
    ((∀ key, (Text.lines a.toList).filter (IsEntryFor · key) =
        (Text.lines b.toList).filter (IsEntryFor · key)) →
      (ofText a).value = (ofText b).value) ∧
    (∀ before line after, Text.lines a.toList = before ++ after →
      Text.lines b.toList = before ++ line :: after → SaysNothing line →
      (ofText a).value = (ofText b).value) := by
  refine ⟨fun code hcode => ?_, ?_, fun key => ?_, fun hsame => ?_,
    fun before line after ha hb hnothing => ?_⟩
  -- How many codes the last entry lists decides which of the three answers there is.
  · simp only [single_ofText a hcode, ← last_filterMap_eq_none_iff, ← last_filterMap_eq_some_iff]
    rw [← entries]
    rcases last code (entries a.toList) with _ | _ | ⟨x, _ | ⟨y, rest⟩⟩ <;>
      simp [eq_comm]
  · exact ⟨(ofText a).value.codes.keys, Std.ExtTreeMap.nodup_keys,
      fun key => Std.ExtTreeMap.mem_keys.trans mem_ofText_iff, Std.ExtTreeMap.length_keys.symm⟩
  -- The joined text has the lines of both.
  · have htext : (a ++ "\n" ++ b).toList = a.toList ++ '\n' :: b.toList := by simp
    simp only [value_ofText, getElem?_ofList, htext, entries_append, last_append]
  · refine ofText_congr fun key => ?_
    rw [last, last, entries, entries, filter_filterMap_entryOf, filter_filterMap_entryOf, hsame key]
  · refine ofText_congr fun key => ?_
    rw [entries, entries, ha, hb, List.filterMap_append, List.filterMap_append,
      List.filterMap_cons_none (entryOf_of_saysNothing hnothing)]

/-- `WE` stands for two countries in a first text and for one in a second, where `US` loses its
    code: the entry behind a comment is ambiguous until the second text follows. -/
theorem second_text_overrides :
    (ofText "# both\r\nWE = PSE, ISR\r\nUS:USA").value.resolve.single "WE" =
        .error ⟨"WE", ["PSE", "ISR"]⟩ ∧
      (ofText "US:\r\nWE=ISR").value.resolve.single "US" = .ok none ∧
      (ofText ("# both\r\nWE = PSE, ISR\r\nUS:USA" ++ "\n" ++
        "US:\r\nWE=ISR")).value.codes["WE"]? = some ["ISR"] := by
  obtain ⟨hfirst, -, hjoined, -⟩ :=
    ofText_last_entry "# both\r\nWE = PSE, ISR\r\nUS:USA" "US:\r\nWE=ISR"
  obtain ⟨hsecond, -⟩ := ofText_last_entry "US:\r\nWE=ISR" ""
  refine ⟨((hfirst "WE" (by decide)).2.2 _).2 ⟨_, ?_, by decide, rfl⟩,
    (hsecond "US" (by decide)).1.2 (.inr ?_), (hjoined "WE").trans (by decide +kernel)⟩
  · exact ⟨["# both".toList], "WE = PSE, ISR".toList, ["US:USA".toList], by decide +kernel,
      entryOf_eq_some_iff.1 (by decide +kernel), by decide +kernel⟩
  · exact ⟨[], "US:".toList, ["WE=ISR".toList], by decide +kernel,
      entryOf_eq_some_iff.1 (by decide +kernel), by decide +kernel⟩

end CountryTable

end Quicklook
