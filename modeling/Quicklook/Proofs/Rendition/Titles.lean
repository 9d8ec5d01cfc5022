import Quicklook.Proofs.Rendition.FileName

/-!
# Titles of the same name

A file name keeps of a title only the word that its base name is made of, so titles of one word
share their names. A change of case, of characters that are not counted, of the folders before a
title or of its extension leaves the word as it is; and so does the name itself, if it is taken for
a title without its qualifier.

* `Edit`, `word_of_edits`: changes within a title, one after another
* `word_folder`, `core_extension`: what stands before and behind the last segment
* `chars_eq_iff`: a name tells the word and nothing else of a title
* `derive_stable`: all of this for the names of a role
-/

namespace Quicklook.FileName

variable {title file base s t : List Char}

/-! ## §1 Base names of changed titles -/

theorem isSeparator_toLower (c : Char) : isSeparator c.toLower = isSeparator c := by
  rw [Bool.eq_iff_iff]
  simp [isSeparator, Text.toLower_eq_iff]

/-- A selection that keeps the separators keeps the last segment apart. -/
theorem IsLastSegment.filter {p : Char → Bool} (hp : ∀ c, isSeparator c = true → p c = true)
    (h : IsLastSegment title file) : IsLastSegment (title.filter p) (file.filter p) := by
  obtain ⟨hfile, htitle⟩ := h
  refine ⟨fun c hc => hfile c (List.mem_of_mem_filter hc), ?_⟩
  -- The title is the segment alone, or the segment with folders before it.
  rcases htitle with rfl | ⟨folders, c, hc, rfl⟩
  · exact .inl rfl
  · refine .inr ⟨folders.filter p, c, hc, ?_⟩
    rw [List.filter_append, List.filter_cons_of_pos (hp c hc)]

theorem IsLastSegment.map_toLower (h : IsLastSegment title file) :
    IsLastSegment (title.map Char.toLower) (file.map Char.toLower) := by
  obtain ⟨hfile, htitle⟩ := h
  refine ⟨List.forall_mem_map.2 fun c hc => (isSeparator_toLower c).trans (hfile c hc), ?_⟩
  rcases htitle with rfl | ⟨folders, c, hc, rfl⟩
  · exact .inl rfl
  · refine .inr ⟨folders.map Char.toLower, c.toLower, (isSeparator_toLower c).trans hc, ?_⟩
    rw [List.map_append, List.map_cons]

/-- A selection that keeps dots keeps what stands before the last one. -/
theorem IsStem.filter {p : Char → Bool} (hp : p '.' = true) (h : IsStem file base) :
    IsStem (file.filter p) (base.filter p) := by
  rcases h with ⟨hdot, rfl⟩ | ⟨suffix, hdot, rfl⟩
  · exact .inl ⟨fun hmem => hdot (List.mem_of_mem_filter hmem), rfl⟩
  · refine .inr ⟨suffix.filter p, fun hmem => hdot (List.mem_of_mem_filter hmem), ?_⟩
    rw [List.filter_append, List.filter_cons_of_pos hp]

theorem IsStem.map_toLower (h : IsStem file base) :
    IsStem (file.map Char.toLower) (base.map Char.toLower) := by
  have hmem : ∀ s : List Char, '.' ∉ s → '.' ∉ s.map Char.toLower := by
    intro s hs hdot
    obtain ⟨c, hc, heq⟩ := List.mem_map.1 hdot
    exact hs ((Text.toLower_eq_iff (by decide)).1 heq ▸ hc)
  rcases h with ⟨hdot, rfl⟩ | ⟨suffix, hdot, rfl⟩
  · exact .inl ⟨hmem _ hdot, rfl⟩
  · refine .inr ⟨suffix.map Char.toLower, hmem _ hdot, ?_⟩
    rw [List.map_append, List.map_cons]
    rfl

/-! ## §2 Changes within a title -/

/-- Whether a character shows in a file name or decides on what does. -/
def Counts (c : Char) : Bool :=
  c.isAlphanum || c == '.' || isSeparator c

/-- A change of one character of a title: its case is changed, or a character that does not count
    is inserted or deleted. -/
inductive Edit : List Char → List Char → Prop
  | recase (front back : List Char) {c d : Char} (h : Text.SameLetter c d) :
      Edit (front ++ c :: back) (front ++ d :: back)
  | insert (front back : List Char) {c : Char} (h : Counts c = false) :
      Edit (front ++ back) (front ++ c :: back)
  | delete (front back : List Char) {c : Char} (h : Counts c = false) :
      Edit (front ++ c :: back) (front ++ back)

/-- What counts of a title, in lower case. -/
def plain (title : List Char) : List Char :=
  (title.map Char.toLower).filter Counts

theorem plain_append (s t : List Char) : plain (s ++ t) = plain s ++ plain t := by
  rw [plain, List.map_append, List.filter_append]
  rfl

theorem plain_cons_of_not {c : Char} (h : Counts c = false) (s : List Char) :
    plain (c :: s) = plain s := by
  -- A capital letter counts, so lower case leaves this character as it is.
  have hupper : ¬ c.isUpper = true := fun hu => by
    simp [Counts, Char.isAlphanum, Char.isAlpha, hu] at h
  rw [plain, List.map_cons, Char.toLower_eq_of_not_isUpper hupper, List.filter_cons_of_neg]
  · rfl
  · rw [h]
    decide

/-- No change shows in what counts. -/
theorem plain_of_edit (h : Edit s t) : plain t = plain s := by
  cases h with
  | @recase front back c d h =>
    have hback : plain (d :: back) = plain (c :: back) := by
      rw [plain, plain, List.map_cons, List.map_cons, Text.sameLetter_iff.1 h]
    rw [plain_append, plain_append, hback]
  | insert front back h => rw [plain_append, plain_append, plain_cons_of_not h]
  | delete front back h => rw [plain_append, plain_append, plain_cons_of_not h]

theorem word_filter_counts (title : List Char) : word (title.filter Counts) = word title := by
  obtain ⟨file, hfile, hbase⟩ : IsBaseName title _ := isBaseName_iff.2 rfl
  have hplain : IsBaseName (title.filter Counts) _ :=
    ⟨_, hfile.filter fun c hc => by simp [Counts, hc], hbase.filter (by decide)⟩
  rw [word_of_isBaseName hplain, word_of_isBaseName ⟨file, hfile, hbase⟩, List.filter_filter]
  -- Of the base name the letters and digits are kept, and all of these count.
  refine congrArg (List.map Char.toLower) (List.filter_congr fun c _ => ?_)
  by_cases hc : c.isAlphanum = true <;> simp [Counts, hc]

theorem word_map_toLower (title : List Char) : word (title.map Char.toLower) = word title := by
  obtain ⟨file, hfile, hbase⟩ : IsBaseName title _ := isBaseName_iff.2 rfl
  have hlower : IsBaseName (title.map Char.toLower) _ := ⟨_, hfile.map_toLower, hbase.map_toLower⟩
  rw [word_of_isBaseName hlower, word_of_isBaseName ⟨file, hfile, hbase⟩, List.filter_map,
    List.map_map]
  -- Lower case is taken once more, of the same letters.
  have hclass : Char.isAlphanum ∘ Char.toLower = Char.isAlphanum := funext Text.isAlphanum_toLower
  have htwice : Char.toLower ∘ Char.toLower = Char.toLower :=
    funext Char.toLower_toLower_eq_toLower
  rw [hclass, htwice]

/-- The word of a title is the word of what counts of it. -/
theorem word_plain (title : List Char) : word (plain title) = word title := by
  rw [plain, word_filter_counts, word_map_toLower]

/-- Any number of changes leaves the word as it is. -/
theorem word_of_edits (h : Relation.ReflTransGen Edit s t) : word t = word s := by
  -- Each change leaves what counts as it is, and the word is the word of that.
  induction h with
  | refl => rfl
  | tail _ hedit ih => rw [← word_plain, plain_of_edit hedit, word_plain, ih]

/-! ## §3 Before and behind the last segment -/

/-- Folders before a title do not matter. -/
theorem word_folder {c : Char} (hc : isSeparator c = true) (folder file : List Char) :
    word (folder ++ c :: file) = word file := by
  obtain ⟨segment, hsegment, hbase⟩ : IsBaseName file _ := isBaseName_iff.2 rfl
  have hfolder : IsLastSegment (folder ++ c :: file) segment := by
    refine ⟨hsegment.1, .inr ?_⟩
    -- The folder comes before any others that the file has.
    rcases hsegment.2 with rfl | ⟨folders, d, hd, rfl⟩
    · exact ⟨folder, c, hc, rfl⟩
    · exact ⟨folder ++ c :: folders, d, hd, by simp⟩
  rw [word_of_isBaseName ⟨segment, hfolder, hbase⟩, word_of_isBaseName ⟨segment, hsegment, hbase⟩]

/-- Before an extension the whole segment counts. -/
theorem core_extension {segment extension : List Char} (h : IsLastSegment file segment)
    (hx : ∀ c ∈ extension, c ≠ '.' ∧ isSeparator c = false) :
    core (file ++ '.' :: extension) = segment.filter Char.isAlphanum := by
  have hsegment : IsLastSegment (file ++ '.' :: extension) (segment ++ '.' :: extension) := by
    refine ⟨?_, ?_⟩
    · intro c hc
      rcases List.mem_append.1 hc with hc | hc
      · exact h.1 c hc
      · rcases List.mem_cons.1 hc with rfl | hc
        · decide
        · exact (hx c hc).2
    · rcases h.2 with rfl | ⟨folders, c, hc, rfl⟩
      · exact .inl rfl
      · exact .inr ⟨folders, c, hc, by simp⟩
  have hstem : IsStem (segment ++ '.' :: extension) segment :=
    .inr ⟨extension, fun hdot => (hx _ hdot).1 rfl, rfl⟩
  rw [core, isBaseName_iff.1 ⟨_, hsegment, hstem⟩]
  rfl

/-! ## §4 Names -/

section Names

variable {qualifier extension title' : List Char}

theorem middle_eq_iff : middle title = middle title' ↔ word title = word title' := by
  rw [middle, middle]
  split <;> split <;> simp_all

/-- The dot of a name comes after the word. -/
theorem before_middle_append (title suffix : List Char) :
    Text.before (· == '.') (middle title ++ '.' :: suffix) = middle title := by
  refine Text.before_append_cons (fun c hc => ?_) (by decide)
  rw [beq_eq_false_iff_ne]
  rintro rfl
  rw [middle] at hc
  split at hc
  · cases hc
  · rcases List.mem_cons.1 hc with heq | hmem
    · cases heq
    · exact not_mem_of_isWord (isWord_word title) (by decide) hmem

/-- A name tells the word and nothing else of a title. -/
theorem chars_eq_iff (hq : IsWord qualifier) (he : IsWord extension) :
    chars title qualifier extension = chars title' qualifier extension ↔
      word title = word title' := by
  -- The qualifier comes first on both sides.
  rw [chars_eq_append hq he, chars_eq_append hq he, List.append_cancel_left_eq]
  constructor
  · intro h
    -- What comes before the dot is the same on both sides.
    have hmiddle := congrArg (Text.before (· == '.')) h
    rw [before_middle_append, before_middle_append] at hmiddle
    exact middle_eq_iff.1 hmiddle
  · intro h
    rw [middle, middle, suffix, suffix, h]

theorem isSeparator_of_isWord (h : IsWord s) : ∀ c ∈ s, isSeparator c = false := by
  intro c hc
  rw [isSeparator, Bool.or_eq_false_iff, beq_eq_false_iff_ne, beq_eq_false_iff_ne]
  constructor <;> rintro rfl <;> exact not_mem_of_isWord h (by decide) hc

/-- What follows the qualifier of a name has the word of the title, again. -/
theorem word_of_name (he : IsWord extension) (title : List Char) :
    word (word title ++ '.' :: extension) = word title := by
  have hword := isWord_word title
  have hsegment : IsLastSegment (word title) (word title) :=
    ⟨isSeparator_of_isWord hword, .inl rfl⟩
  have hextension : ∀ c ∈ extension, c ≠ '.' ∧ isSeparator c = false := by
    intro c hc
    refine ⟨?_, isSeparator_of_isWord he c hc⟩
    rintro rfl
    exact not_mem_of_isWord he (by decide) hc
  have hall : (word title).filter Char.isAlphanum = word title :=
    List.filter_eq_self.2 fun c => isAlphanum_of_isWord hword
  calc word (word title ++ '.' :: extension)
      = ((word title).filter Char.isAlphanum).map Char.toLower := by
        rw [word, core_extension hsegment hextension]
    _ = word title := by rw [hall, map_toLower_of_isWord hword]

end Names

/-! ## §5 Names of a role -/

section Role

variable (role : Role)

/-- Names of one role differ exactly as the words of their titles do. -/
theorem derive_eq_iff {title title' : String} :
    derive title role.qualifier role.extension = derive title' role.qualifier role.extension ↔
      word title.toList = word title'.toList :=
  String.ofList_inj.trans (chars_eq_iff role.isWord_qualifier role.isWord_extension)

/-- With a core, a name is its qualifier, a hyphen and the rest of the name. -/
theorem derive_eq_append {title : String} (h : word title.toList ≠ []) :
    derive title role.qualifier role.extension = role.qualifier ++ "-" ++
      String.ofList (word title.toList ++ '.' :: role.extension.toList) := by
  apply String.toList_inj.1
  rw [derive, String.toList_ofList, chars_eq_append role.isWord_qualifier role.isWord_extension,
    middle, suffix, if_neg h, if_neg h]
  simp

/-- **Names are stable.** In each role the name of a title with a core is the qualifier, a hyphen
    and a rest, and the rest as a title has that name again. Folders before a title do not matter,
    with either separator; nor does any number of changes of case and of characters that do not
    count. Behind a file name every extension leaves all letters and digits of its last segment.
    And two titles have one name exactly if their cores are the same in lower case. -/
theorem derive_stable :
    let name := fun title : String => derive title role.qualifier role.extension
    (∀ title : String, core title.toList ≠ [] →
      ∃ rest, name title = role.qualifier ++ "-" ++ rest ∧ name rest = name title) ∧
    (∀ folder file : String, name (folder ++ "/" ++ file) = name file ∧
      name (folder ++ "\\" ++ file) = name file) ∧
    (∀ title title' : String, Relation.ReflTransGen Edit title.toList title'.toList →
      name title' = name title) ∧
    (∀ file : String, ∃ segment, IsLastSegment file.toList segment ∧ ∀ extension : String,
      (∀ c ∈ extension.toList, c ≠ '.' ∧ c ≠ '/' ∧ c ≠ '\\') →
        core (file ++ "." ++ extension).toList = segment.filter Char.isAlphanum) ∧
    ∀ title title' : String, name title = name title' ↔
      (core title.toList).map Char.toLower = (core title'.toList).map Char.toLower := by
  intro name
  refine ⟨?_, ?_, ?_, ?_, fun title title' => derive_eq_iff role⟩
  · intro title hcore
    have hword : word title.toList ≠ [] := mt List.map_eq_nil_iff.1 hcore
    refine ⟨_, derive_eq_append role hword, (derive_eq_iff role).2 ?_⟩
    rw [String.toList_ofList, word_of_name role.isWord_extension]
  -- Both separators are treated alike.
  · intro folder file
    constructor <;> refine (derive_eq_iff role).2 ?_ <;>
      rw [String.toList_append, String.toList_append, List.append_assoc]
    · exact word_folder (c := '/') (by decide) _ _
    · exact word_folder (c := '\\') (by decide) _ _
  · intro title title' hedits
    exact (derive_eq_iff role).2 (word_of_edits hedits)
  · intro file
    refine ⟨_, isLastSegment_iff.2 rfl, fun extension hx => ?_⟩
    rw [String.toList_append, String.toList_append, List.append_assoc]
    refine core_extension (isLastSegment_iff.2 rfl) fun c hc => ?_
    obtain ⟨hdot, hslash, hbackslash⟩ := hx c hc
    exact ⟨hdot, by simp [isSeparator, hslash, hbackslash]⟩

/-- The name of `Pass-2` keeps its case and its hyphen to itself: `PASS2` has the same one. -/
theorem pass_two_in_either_case :
    let name := fun title => derive title Role.original.qualifier Role.original.extension
    core "Pass-2.ntf".toList ≠ [] ∧
      (∃ rest, name "Pass-2.ntf" = "original" ++ "-" ++ rest ∧ name rest = name "Pass-2.ntf") ∧
      Relation.ReflTransGen Edit "pa-2".toList "PA2".toList ∧ name "PA2" = name "pa-2" ∧
      (∀ c ∈ "v1 ntf".toList, c ≠ '.' ∧ c ≠ '/' ∧ c ≠ '\\') ∧
      core ("in/Scene.v2" ++ "." ++ "v1 ntf").toList = "Scenev2".toList := by
  intro name
  have hcore : core "Pass-2.ntf".toList ≠ [] := by decide
  -- First each letter, then the hyphen.
  have hedits : Relation.ReflTransGen Edit "pa-2".toList "PA2".toList :=
    .tail (.tail (.tail .refl (.recase [] ['a', '-', '2'] (.inr (.inr rfl))))
      (.recase ['P'] ['-', '2'] (.inr (.inr rfl)))) (.delete ['P', 'A'] ['2'] (by decide))
  have hextension : ∀ c ∈ "v1 ntf".toList, c ≠ '.' ∧ c ≠ '/' ∧ c ≠ '\\' := by
    simp
  obtain ⟨hrest, -, hname, hsegment, -⟩ := derive_stable .original
  obtain ⟨segment, hlast, hall⟩ := hsegment "in/Scene.v2"
  have hscene : segment = "Scene.v2".toList := (isLastSegment_iff.1 hlast).symm.trans (by decide)
  refine ⟨hcore, hrest _ hcore, hedits, hname _ _ hedits, hextension, ?_⟩
  rw [hall _ hextension, hscene]
  decide

end Role

end Quicklook.FileName
