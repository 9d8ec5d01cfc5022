import Mathlib.Data.List.TakeWhile
import Quicklook.Proofs.Text.Letters
import Quicklook.Rendition.Basic

/-!
# File names are safe

A title may be any text, with separators of both kinds, dots, controls and letters of any
script. What is left of it in a file name is a word of lower-case ASCII letters and digits, so a
file name is a qualifier, perhaps a hyphen and such a word, a dot and an extension.

* `isBaseName_iff`: the base name of a title, by what stands around it
* `chars_eq_append`: a file name as the qualifier and what follows it
* `takeWhile_isLower_chars`: the qualifier can be read off the name
* `fileName_make`: the names of renditions, the characters in them, and their roles
-/

namespace Quicklook

namespace FileName

/-! ## §1 Base names -/

/-- What follows the last separator of a title. -/
def IsLastSegment (title file : List Char) : Prop :=
  (∀ c ∈ file, isSeparator c = false) ∧
    (title = file ∨ ∃ folders c, isSeparator c = true ∧ title = folders ++ c :: file)

/-- What comes before the last dot of a file, or all of it if it has no dot. -/
def IsStem (file base : List Char) : Prop :=
  ('.' ∉ file ∧ base = file) ∨ ∃ suffix, '.' ∉ suffix ∧ file = base ++ '.' :: suffix

/-- The base name of a title: its last segment, cut before the last dot. -/
def IsBaseName (title base : List Char) : Prop :=
  ∃ file, IsLastSegment title file ∧ IsStem file base

/-- A text has no character of a class, or a last one. -/
private theorem eq_append_last (p : Char → Bool) (s : List Char) :
    (∀ c ∈ s, p c = false) ∨
      ∃ before c after, p c = true ∧ (∀ d ∈ after, p d = false) ∧ s = before ++ c :: after := by
  -- The last one is the first one of the text read backwards.
  cases h : Text.cutAt p s.reverse with
  | none =>
    left
    intro c hc
    exact Text.cutAt_eq_none_iff.1 h c (List.mem_reverse.2 hc)
  | some parts =>
    right
    obtain ⟨c, hc, heq⟩ := Text.eq_append_of_cutAt h
    refine ⟨parts.2.reverse, c, parts.1.reverse, hc, ?_, ?_⟩
    · intro d hd
      exact Text.not_mem_of_cutAt h d (List.mem_reverse.1 hd)
    · have hrev := congrArg List.reverse heq
      simpa using hrev

private theorem lastSegment_append {folders file : List Char} {c : Char}
    (hc : isSeparator c = true) (hfile : ∀ d ∈ file, isSeparator d = false) :
    lastSegment (folders ++ c :: file) = file := by
  have hrev : (folders ++ c :: file).reverse = file.reverse ++ c :: folders.reverse := by simp
  have hall : ∀ d ∈ file.reverse, (! isSeparator d) = true := by
    intro d hd
    simp [hfile d (List.mem_reverse.1 hd)]
  -- Backwards, the last separator is the first character that is not taken.
  rw [lastSegment, hrev, List.takeWhile_append_of_pos hall]
  simp [hc]

private theorem lastSegment_of_forall {file : List Char}
    (hfile : ∀ d ∈ file, isSeparator d = false) : lastSegment file = file := by
  have hall : file.reverse.takeWhile (! isSeparator ·) = file.reverse := by
    rw [List.takeWhile_eq_self_iff]
    intro d hd
    simp [hfile d (List.mem_reverse.1 hd)]
  rw [lastSegment, hall, List.reverse_reverse]

/-- The last segment of a title is the one that names are made of, whichever separators come before
    it. -/
theorem isLastSegment_iff {title file : List Char} :
    IsLastSegment title file ↔ lastSegment title = file := by
  constructor
  · rintro ⟨hfile, rfl | ⟨folders, c, hc, rfl⟩⟩
    · exact lastSegment_of_forall hfile
    · exact lastSegment_append hc hfile
  · rintro rfl
    -- What `lastSegment` gives is told apart by whether the title has a separator at all.
    rcases eq_append_last isSeparator title with hnone | ⟨folders, c, file, hc, hfile, rfl⟩
    · rw [lastSegment_of_forall hnone]
      exact ⟨hnone, .inl rfl⟩
    · rw [lastSegment_append hc hfile]
      exact ⟨hfile, .inr ⟨folders, c, hc, rfl⟩⟩

private theorem stem_append {base suffix : List Char} (h : '.' ∉ suffix) :
    stem (base ++ '.' :: suffix) = base := by
  have hrev : (base ++ '.' :: suffix).reverse = suffix.reverse ++ '.' :: base.reverse := by simp
  have hall : ∀ d ∈ suffix.reverse, (d != '.') = true := by
    intro d hd
    simpa using fun hdot : d = '.' => h (hdot ▸ List.mem_reverse.1 hd)
  rw [stem, hrev, List.dropWhile_append_of_pos hall]
  simp

private theorem stem_of_not_mem {file : List Char} (h : '.' ∉ file) : stem file = file := by
  have hall : file.reverse.dropWhile (· != '.') = [] := by
    rw [List.dropWhile_eq_nil_iff]
    intro d hd
    simpa using fun hdot : d = '.' => h (hdot ▸ List.mem_reverse.1 hd)
  rw [stem, hall]

theorem isStem_iff {file base : List Char} : IsStem file base ↔ stem file = base := by
  constructor
  · rintro (⟨hfile, rfl⟩ | ⟨suffix, hsuffix, rfl⟩)
    · exact stem_of_not_mem hfile
    · exact stem_append hsuffix
  · rintro rfl
    -- The same for the last dot of the file.
    rcases eq_append_last (· == '.') file with hnone | ⟨base, c, suffix, hc, hsuffix, rfl⟩
    · have hfile : '.' ∉ file := fun hmem => absurd (hnone '.' hmem) (by decide)
      rw [stem_of_not_mem hfile]
      exact .inl ⟨hfile, rfl⟩
    · obtain rfl : c = '.' := by simpa using hc
      have hdot : '.' ∉ suffix := fun hmem => absurd (hsuffix '.' hmem) (by decide)
      rw [stem_append hdot]
      exact .inr ⟨suffix, hdot, rfl⟩

/-- A title has one base name, and it is the one that names are made of. -/
theorem isBaseName_iff {title base : List Char} :
    IsBaseName title base ↔ stem (lastSegment title) = base := by
  simp only [IsBaseName, isLastSegment_iff, isStem_iff, exists_eq_left']

/-! ## §2 Words -/

/-- Whether a text consists of lower-case ASCII letters and digits. -/
def IsWord (s : List Char) : Prop :=
  ∀ c ∈ s, c.isLower = true ∨ c.isDigit = true

theorem isWord_iff_all {s : List Char} :
    IsWord s ↔ s.all (fun c => c.isLower || c.isDigit) = true := by
  simp only [IsWord, List.all_eq_true, Bool.or_eq_true]

-- Goes through the characters of the text, not through all characters there are.
instance (s : List Char) : Decidable (IsWord s) :=
  decidable_of_iff _ isWord_iff_all.symm

private theorem toNat_lt_of_isAlphanum {c : Char} (h : c.isAlphanum = true) : c.toNat < 128 := by
  have hrange := Text.toNat_of_isAlphanum h
  omega

/-- What holds of the 128 characters of ASCII. -/
private theorem of_ascii {P : Char → Prop} (key : ∀ n : Fin 128, P (Char.ofNat n)) {c : Char}
    (hc : c.toNat < 128) : P c := by
  have h := key ⟨c.toNat, hc⟩
  simpa only [Char.ofNat_toNat] using h

/-- In lower case a letter or digit is a small letter or a digit. -/
private theorem toLower_of_isAlphanum {c : Char} (h : c.isAlphanum = true) :
    c.toLower.isLower = true ∨ c.toLower.isDigit = true := by
  -- There are few enough letters and digits to look at each.
  refine of_ascii (P := fun c => c.isAlphanum = true →
    c.toLower.isLower = true ∨ c.toLower.isDigit = true) ?_ (toNat_lt_of_isAlphanum h) h
  decide

theorem isAlphanum_of_isWord {s : List Char} (h : IsWord s) {c : Char} (hc : c ∈ s) :
    c.isAlphanum = true := by
  show ((c.isUpper || c.isLower) || c.isDigit) = true
  rcases h c hc with hlower | hdigit
  · rw [hlower, Bool.or_true, Bool.true_or]
  · rw [hdigit, Bool.or_true]

theorem map_toLower_of_isWord {s : List Char} (h : IsWord s) : s.map Char.toLower = s := by
  refine (List.map_congr_left fun c hc => ?_).trans (List.map_id s)
  refine of_ascii (P := fun c => c.isLower = true ∨ c.isDigit = true → c.toLower = id c) ?_
    (toNat_lt_of_isAlphanum (isAlphanum_of_isWord h hc)) (h c hc)
  decide

/-- A word has no hyphen, no dot, and nothing else that is neither letter nor digit. -/
theorem not_mem_of_isWord {s : List Char} (h : IsWord s) {c : Char} (hc : c.isAlphanum = false) :
    c ∉ s := by
  intro hmem
  rw [isAlphanum_of_isWord h hmem] at hc
  cases hc

private theorem count_of_isWord {s : List Char} (h : IsWord s) {c : Char}
    (hc : c.isAlphanum = false) : s.count c = 0 :=
  List.count_eq_zero.2 (not_mem_of_isWord h hc)

/-! ## §3 Names -/

/-- The core of a title in lower case. -/
def word (title : List Char) : List Char :=
  (core title).map Char.toLower

theorem isWord_word (title : List Char) : IsWord (word title) := by
  intro c hc
  obtain ⟨d, hd, rfl⟩ := List.mem_map.1 hc
  exact toLower_of_isAlphanum (isCore_of_mem_core hd)

/-- A word is all letters and digits of the base name, in their order. -/
theorem word_of_isBaseName {title base : List Char} (h : IsBaseName title base) :
    word title = (base.filter Char.isAlphanum).map Char.toLower := by
  rw [word, core, isBaseName_iff.1 h]
  rfl

/-- What stands between the qualifier and the dot. -/
def middle (title : List Char) : List Char :=
  if word title = [] then [] else '-' :: word title

/-- What stands after the dot: without a core it is not the extension that was asked for. -/
def suffix (title extension : List Char) : List Char :=
  if word title = [] then fallbackExtension else extension

variable {title qualifier extension : List Char}

/-- The extension that was asked for is a word, and so is the one without a core. -/
theorem isWord_suffix (he : IsWord extension) : IsWord (suffix title extension) := by
  rw [suffix]
  split
  · decide
  · exact he

/-- Whether a character may stand in a file name before it is put in lower case. -/
private def IsPlain (c : Char) : Prop :=
  c.isAlphanum = true ∨ c = '-' ∨ c = '.'

private theorem lower_of_isPlain {s : List Char} (h : ∀ c ∈ s, IsPlain c) :
    Text.lower s = s.map Char.toLower := by
  refine Text.lower_of_ascii fun c hc => ?_
  rcases h c hc with halnum | rfl | rfl
  · exact toNat_lt_of_isAlphanum halnum
  · decide
  · decide

private theorem word_eq_nil_iff : word title = [] ↔ core title = [] :=
  List.map_eq_nil_iff

/-- A file name has three parts, and the title shows only in the middle. -/
theorem chars_eq_append (hq : IsWord qualifier) (he : IsWord extension) :
    chars title qualifier extension =
      qualifier ++ (middle title ++ '.' :: suffix title extension) := by
  have hword : ∀ {s : List Char}, IsWord s → ∀ c ∈ s, IsPlain c :=
    fun hs c hc => .inl (isAlphanum_of_isWord hs hc)
  have hdot : IsPlain '.' := .inr (.inr rfl)
  have hjpg : IsWord fallbackExtension := by decide
  -- Lower case is taken of the whole name, so both forms are shown to be plain first.
  by_cases hnil : core title = []
  · have hplain : ∀ c ∈ qualifier ++ '.' :: fallbackExtension, IsPlain c :=
      List.forall_mem_append.2 ⟨hword hq, List.forall_mem_cons.2 ⟨hdot, hword hjpg⟩⟩
    calc chars title qualifier extension
        = Text.lower (qualifier ++ '.' :: fallbackExtension) := by rw [chars, hnil]
      _ = qualifier ++ '.' :: fallbackExtension := by
          rw [lower_of_isPlain hplain, List.map_append, map_toLower_of_isWord hq]
          rfl
      _ = _ := by rw [middle, suffix, if_pos (word_eq_nil_iff.2 hnil),
          if_pos (word_eq_nil_iff.2 hnil), List.nil_append]
  · have hcore : ∀ c ∈ core title, IsPlain c := fun c hc => .inl (isCore_of_mem_core hc)
    have hplain : ∀ c ∈ qualifier ++ ('-' :: core title ++ '.' :: extension), IsPlain c :=
      List.forall_mem_append.2 ⟨hword hq, List.forall_mem_cons.2 ⟨.inr (.inl rfl),
        List.forall_mem_append.2 ⟨hcore, List.forall_mem_cons.2 ⟨hdot, hword he⟩⟩⟩⟩
    calc chars title qualifier extension
        = Text.lower (qualifier ++ ('-' :: core title ++ '.' :: extension)) := by
          rw [chars, ← List.append_assoc]
          cases h : core title with
          | nil => exact absurd h hnil
          | cons c cs => rfl
      _ = qualifier ++ ('-' :: word title ++ '.' :: extension) := by
          rw [lower_of_isPlain hplain, List.map_append, List.map_append, List.map_cons,
            List.map_cons, map_toLower_of_isWord hq, map_toLower_of_isWord he]
          rfl
      _ = _ := by rw [middle, suffix, if_neg (mt word_eq_nil_iff.1 hnil),
          if_neg (mt word_eq_nil_iff.1 hnil)]

/-- The qualifier can be read off the name. -/
theorem takeWhile_isLower_chars (hq : ∀ c ∈ qualifier, c.isLower = true)
    (he : IsWord extension) :
    (chars title qualifier extension).takeWhile Char.isLower = qualifier := by
  rw [chars_eq_append (fun c hc => .inl (hq c hc)) he, List.takeWhile_append_of_pos hq, middle]
  -- What comes next is the hyphen or the dot, and neither is a letter.
  split <;> simp

theorem mem_chars (hq : IsWord qualifier) (he : IsWord extension) {c : Char}
    (h : c ∈ chars title qualifier extension) :
    (c.isLower = true ∨ c.isDigit = true) ∨ c = '-' ∨ c = '.' := by
  rw [chars_eq_append hq he, List.mem_append, List.mem_append, List.mem_cons] at h
  -- hc | rfl | hc | The parts in their order: qualifier, middle, dot and suffix.
  rcases h with hc | hc | rfl | hc
  · exact .inl (hq c hc)
  · rw [middle] at hc
    split at hc
    · cases hc
    · rcases List.mem_cons.1 hc with rfl | hc
      · exact .inr (.inl rfl)
      · exact .inl (isWord_word title c hc)
  · exact .inr (.inr rfl)
  · exact .inl (isWord_suffix he c hc)

/-- There is at most one hyphen, and exactly one dot. -/
theorem count_chars (hq : IsWord qualifier) (he : IsWord extension) :
    (chars title qualifier extension).count '-' ≤ 1 ∧
      (chars title qualifier extension).count '.' = 1 := by
  have hsuffix : IsWord (suffix title extension) := isWord_suffix he
  have hword := isWord_word title
  have hhyphen : Char.isAlphanum '-' = false := by decide
  have hdot : Char.isAlphanum '.' = false := by decide
  rw [chars_eq_append hq he, middle]
  -- The dot is between words, and the hyphen is there only before the core.
  split
  · simp [count_of_isWord hq, count_of_isWord hsuffix, hhyphen, hdot]
  · simp [count_of_isWord hq, count_of_isWord hword, count_of_isWord hsuffix, hhyphen, hdot]

end FileName

/-! ## §4 Names of renditions -/

namespace Role

/-- The qualifiers of all roles are small letters throughout. -/
theorem isLower_of_mem_qualifier (role : Role) :
    ∀ c ∈ role.qualifier.toList, c.isLower = true := by
  rw [← List.all_eq_true]
  cases role <;> decide

theorem isWord_qualifier (role : Role) : FileName.IsWord role.qualifier.toList :=
  fun c hc => .inl (role.isLower_of_mem_qualifier c hc)

theorem isWord_extension (role : Role) : FileName.IsWord role.extension.toList := by
  cases role <;> decide

theorem eq_of_qualifier_eq {role other : Role} (h : role.qualifier = other.qualifier) :
    role = other := by
  revert h
  cases role <;> cases other <;> decide

end Role

namespace Rendition

open FileName (IsBaseName)

variable (role : Role) (title : String) (content : Bytes)

theorem toList_fileName_make :
    (make role title content).fileName.toList =
      FileName.chars title.toList role.qualifier.toList role.extension.toList :=
  String.toList_ofList

/-- The qualifier of a rendition is the longest front of its name that is made of small letters. -/
theorem qualifier_of_fileName :
    (make role title content).fileName.toList.takeWhile Char.isLower = role.qualifier.toList := by
  rw [toList_fileName_make,
    FileName.takeWhile_isLower_chars role.isLower_of_mem_qualifier role.isWord_extension]

/-- The name of a rendition in its parts. -/
theorem fileName_make :
    (make role title content).fileName.toList =
      role.qualifier.toList ++ (FileName.middle title.toList ++
        '.' :: FileName.suffix title.toList role.extension.toList) := by
  rw [toList_fileName_make,
    FileName.chars_eq_append role.isWord_qualifier role.isWord_extension]

/-- Without a letter or digit in the base name, nothing of the title is in the name. -/
theorem fileName_of_forall {base : List Char} (h : IsBaseName title.toList base)
    (hnone : ∀ c ∈ base, c.isAlphanum = false) :
    (make role title content).fileName = role.qualifier ++ ".jpg" := by
  -- Everything in the base name is left out, and so the word is empty.
  have hnil : FileName.word title.toList = [] := by
    rw [FileName.word_of_isBaseName h, List.map_eq_nil_iff, List.filter_eq_nil_iff]
    intro c hc
    rw [hnone c hc]
    decide
  apply String.toList_inj.1
  rw [fileName_make, FileName.middle, FileName.suffix, if_pos hnil, if_pos hnil,
    String.toList_append]
  rfl

/-- With a letter or digit in the base name all of these are in the name, behind a hyphen. -/
theorem fileName_of_exists {base : List Char} (h : IsBaseName title.toList base)
    (hsome : ∃ c ∈ base, c.isAlphanum = true) :
    (make role title content).fileName =
      role.qualifier ++ "-" ++ String.ofList ((base.filter Char.isAlphanum).map Char.toLower) ++
        "." ++ role.extension := by
  obtain ⟨c, hc, halnum⟩ := hsome
  have hword := FileName.word_of_isBaseName h
  -- One character at least is left of the base name.
  have hcons : FileName.word title.toList ≠ [] := by
    rw [hword, Ne, List.map_eq_nil_iff, List.filter_eq_nil_iff]
    exact fun hnone => hnone c hc halnum
  apply String.toList_inj.1
  rw [fileName_make, FileName.middle, FileName.suffix, if_neg hcons, if_neg hcons, hword]
  simp

/-- **File names are safe and tell the role.** A title has exactly one base name. Without an
    ASCII letter or digit in it the file name is the qualifier with the extension `jpg`; otherwise
    it has, between the qualifier and the extension of the role, all of these in their order and
    in lower case. So there is nothing in a file name but lower-case letters, digits, at most one
    hyphen and exactly one dot, and files in different roles never share a name. -/
theorem fileName_safe :
    let name := (make role title content).fileName
    (∃! base, IsBaseName title.toList base) ∧
    (∀ base, IsBaseName title.toList base →
      ((∀ c ∈ base, c.isAlphanum = false) → name = role.qualifier ++ ".jpg") ∧
      ((∃ c ∈ base, c.isAlphanum = true) →
        name = role.qualifier ++ "-" ++
          String.ofList ((base.filter Char.isAlphanum).map Char.toLower) ++ "." ++
            role.extension)) ∧
    (∀ c ∈ name.toList, (c.isLower = true ∨ c.isDigit = true) ∨ c = '-' ∨ c = '.') ∧
    name.toList.count '-' ≤ 1 ∧ name.toList.count '.' = 1 ∧
    (∀ c ∈ name.toList, c ≠ '/' ∧ c ≠ '\\') ∧
    ∀ (other : Role) (title' : String) (content' : Bytes), other ≠ role →
      (make other title' content').fileName ≠ name := by
  intro name
  have hchars : name.toList = FileName.chars title.toList role.qualifier.toList
      role.extension.toList := toList_fileName_make role title content
  have hsafe : ∀ c ∈ name.toList, (c.isLower = true ∨ c.isDigit = true) ∨ c = '-' ∨ c = '.' := by
    rw [hchars]
    exact fun c => FileName.mem_chars role.isWord_qualifier role.isWord_extension
  have hcount : name.toList.count '-' ≤ 1 ∧ name.toList.count '.' = 1 := by
    rw [hchars]
    exact FileName.count_chars role.isWord_qualifier role.isWord_extension
  refine ⟨?_, ?_, hsafe, hcount.1, hcount.2, ?_, ?_⟩
  · refine ⟨_, FileName.isBaseName_iff.2 rfl, fun base h => ?_⟩
    exact (FileName.isBaseName_iff.1 h).symm
  · exact fun base h => ⟨fileName_of_forall role title content h,
      fileName_of_exists role title content h⟩
  · intro c hc
    constructor
    -- A separator is no small letter, no digit, no hyphen and no dot.
    · rintro rfl
      exact absurd (hsafe _ hc) (by decide)
    · rintro rfl
      exact absurd (hsafe _ hc) (by decide)
  · -- The qualifier is what comes before the first hyphen or dot, so equal names have equal ones.
    intro other title' content' hne heq
    apply hne
    apply Role.eq_of_qualifier_eq
    apply String.toList_inj.1
    rw [← qualifier_of_fileName, heq, qualifier_of_fileName]

/-- Folders of both kinds, a dot in the base name and the last dot after it. -/
theorem fileName_of_scene_in_folders :
    let title := "C:\\in/Scene_04.v2.NTF"
    IsBaseName title.toList "Scene_04.v2".toList ∧
      (∃ c ∈ "Scene_04.v2".toList, c.isAlphanum = true) ∧ Role.overview ≠ .original ∧
      (make .original title []).fileName = "original-scene04v2.jp2" ∧
      (make .overview "###" []).fileName ≠ (make .original title []).fileName := by
  intro title
  have hbase : IsBaseName title.toList "Scene_04.v2".toList := FileName.isBaseName_iff.2 (by decide)
  have hsome : ∃ c ∈ "Scene_04.v2".toList, c.isAlphanum = true := ⟨'S', by decide, by decide⟩
  obtain ⟨-, hname, -, -, -, -, hroles⟩ := fileName_safe .original title []
  exact ⟨hbase, hsome, by decide, (hname _ hbase).2 hsome, hroles .overview "###" [] (by decide)⟩

end Rendition

end Quicklook
