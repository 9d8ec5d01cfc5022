import Quicklook.Proofs.Pipeline.Pictureless
import Quicklook.Proofs.Text.Letters
import Quicklook.Proofs.Text.Trimming

/-!
# What passes the gate

A source passes the gate if its type is that of the images, however it is written, and if its
declared size is below a bound. A size counts in whole megabytes, rounded down; in bytes the bound
is one megabyte above the limit, which may be more than 64 bits hold.

* `isNitf_iff`: the type of the images, as a grammar of texts
* `limit_lt_wholeMegabytes_iff`: the bound on sizes in bytes
* `gate_exact`: what the gate answers, and what it looks at
-/

namespace Quicklook

open Text (SameLetters isBlank trim trimStart trimEnd)

/-! ## §1 Types in writing -/

namespace Mime

/-- A text is some other one with blanks around it. -/
def Padded (s t : List Char) : Prop :=
  ∃ front back, (∀ b ∈ front, isBlank b = true) ∧ (∀ b ∈ back, isBlank b = true) ∧
    t = front ++ s ++ back

/-- Nothing, or a semicolon and anything behind it. -/
def Parameters (s : List Char) : Prop :=
  s = [] ∨ ∃ rest, s = ';' :: rest

/-- A text names the type of the images: the words `image` and `nitf` with a slash between them,
    in either case and with blanks around each, and perhaps parameters. -/
def NamesNitf (mime : List Char) : Prop :=
  ∃ kind subtype left right parameters,
    SameLetters "image".toList kind ∧ SameLetters "nitf".toList subtype ∧
    Padded kind left ∧ Padded subtype right ∧ Parameters parameters ∧
    mime = left ++ '/' :: right ++ parameters

variable {s t kind subtype left right parameters mime : List Char}

/-! ## §2 Parts of a type -/

theorem padded_trim (t : List Char) : Padded (trim t) t :=
  Text.exists_eq_append_trim t

theorem Padded.blanks_append {blanks : List Char} (hb : ∀ b ∈ blanks, isBlank b = true)
    (h : Padded s t) : Padded s (blanks ++ t) := by
  obtain ⟨front, back, hfront, hback, rfl⟩ := h
  exact ⟨blanks ++ front, back, List.forall_mem_append.2 ⟨hb, hfront⟩, hback, by simp⟩

theorem Padded.append_blanks {blanks : List Char} (hb : ∀ b ∈ blanks, isBlank b = true)
    (h : Padded s t) : Padded s (t ++ blanks) := by
  obtain ⟨front, back, hfront, hback, rfl⟩ := h
  exact ⟨front, back ++ blanks, hfront, List.forall_mem_append.2 ⟨hback, hb⟩, by simp⟩

/-- A word with blanks around it is found by trimming. -/
theorem Padded.trim_eq (h : Padded s t) (hs : ∀ c ∈ s, isBlank c = false) : trim t = s := by
  obtain ⟨front, back, hfront, hback, rfl⟩ := h
  exact Text.trim_append hfront hback (fun c hc => hs c (List.mem_of_head? hc))
    fun c hc => hs c (List.mem_of_getLast? hc)

theorem Padded.mem_of_mem {c : Char} (h : Padded s t) (hc : isBlank c = false) (hmem : c ∈ t) :
    c ∈ s := by
  obtain ⟨front, back, hfront, hback, rfl⟩ := h
  rcases List.mem_append.1 hmem with hmem | hmem
  · rcases List.mem_append.1 hmem with hmem | hmem
    · exact absurd (hfront c hmem) (by simp [hc])
    · exact hmem
  · exact absurd (hback c hmem) (by simp [hc])

/-- Parameters are cut off at the first semicolon. -/
theorem before_semicolon (hs : ';' ∉ s) (hp : Parameters parameters) :
    Text.before (· == ';') (s ++ parameters) = s := by
  have hall : ∀ c ∈ s, (c == ';') = false := by
    intro c hc
    simpa using fun heq : c = ';' => hs (heq ▸ hc)
  -- Without parameters there is nothing to cut off.
  rcases hp with rfl | ⟨rest, rfl⟩
  · rw [List.append_nil, Text.before_eq_self hall]
  · exact Text.before_append_cons hall (by decide)

/-- Every type is something without a semicolon, and perhaps parameters. -/
theorem exists_parameters (mime : List Char) :
    ∃ parameters, Parameters parameters ∧ mime = Text.before (· == ';') mime ++ parameters := by
  rcases Text.before_eq_self_or (· == ';') mime with heq | ⟨c, rest, hc, heq⟩
  · exact ⟨[], .inl rfl, heq.trans (List.append_nil _).symm⟩
  · obtain rfl : c = ';' := by simpa using hc
    exact ⟨';' :: rest, .inr ⟨rest, rfl⟩, heq⟩

/-- The parts of a type are what stands on both sides of the first slash. -/
theorem mimeParts_append (hsemicolon : ';' ∉ left ++ '/' :: right) (hslash : '/' ∉ left)
    (hp : Parameters parameters) :
    mimeParts (left ++ '/' :: right ++ parameters) = some (trim left, trim right) := by
  have hstart : ∀ c ∈ trimStart left, (c == '/') = false := by
    intro c hc
    have hmem := (List.dropWhile_sublist _).subset hc
    simpa using fun heq : c = '/' => hslash (heq ▸ hmem)
  -- The slash is not blank, so trimming works on each side alone.
  rw [mimeParts, before_semicolon hsemicolon hp, Text.trim_append_cons (by decide),
    Text.cutAt_append_cons hstart (by decide), Option.map_some]
  exact congrArg some (Prod.ext (Text.trim_trimStart left) (Text.trim_trimEnd right))

/-- The parts that are found stand on both sides of a slash, with blanks around each. -/
theorem exists_of_mimeParts (h : mimeParts mime = some (kind, subtype)) :
    ∃ left right parameters, Padded kind left ∧ Padded subtype right ∧ Parameters parameters ∧
      mime = left ++ '/' :: right ++ parameters := by
  obtain ⟨⟨a, b⟩, hcut, heq⟩ := Option.map_eq_some_iff.1 h
  obtain ⟨rfl, rfl⟩ := Prod.mk.inj heq
  obtain ⟨c, hc, hsplit⟩ := Text.eq_append_of_cutAt hcut
  obtain rfl : c = '/' := by simpa using hc
  -- The blanks around the whole type belong to the outer sides of its parts.
  obtain ⟨parameters, hp, hmime⟩ := exists_parameters mime
  obtain ⟨front, back, hfront, hback, hessence⟩ :=
    Text.exists_eq_append_trim (Text.before (· == ';') mime)
  refine ⟨front ++ a, b ++ back, parameters, (padded_trim a).blanks_append hfront,
    (padded_trim b).append_blanks hback, hp, ?_⟩
  rw [hsplit] at hessence
  rw [hmime, hessence]
  simp

/-! ## §3 The type of the images -/

theorem isWord_iff {word : String} (hword : word.toList.map Char.toLower = word.toList) :
    isWord word s = true ↔ SameLetters word.toList s := by
  rw [Text.sameLetters_iff, hword, isWord, beq_iff_eq, eq_comm]

/-- What spells a word has no characters but letters and digits. -/
theorem isAlphanum_of_sameLetters (h : SameLetters s t) (hs : ∀ c ∈ s, c.isAlphanum = true) :
    ∀ d ∈ t, d.isAlphanum = true := by
  intro d hd
  have hmem := List.mem_map_of_mem (f := Char.toLower) hd
  rw [← Text.sameLetters_iff.1 h] at hmem
  obtain ⟨c, hc, heq⟩ := List.mem_map.1 hmem
  rw [← (Text.sameLetter_iff.2 heq).isAlphanum_eq]
  exact hs c hc

/-- The reader knows the type of the images in every way to write it, and nothing else. -/
theorem isNitf_iff (mime : String) :
    (isNitf mime).value = true ↔ NamesNitf mime.toList := by
  have himage : "image".toList.map Char.toLower = "image".toList := by decide
  have hnitf : "nitf".toList.map Char.toLower = "nitf".toList := by decide
  have hvalue : (isNitf mime).value = true ↔ ∃ kind subtype,
      mimeParts mime.toList = some (kind, subtype) ∧ isWord "image" kind = true ∧
        isWord "nitf" subtype = true := by
    rw [isNitf]
    cases mimeParts mime.toList with
    | none => simp
    | some parts => simp [Prod.ext_iff, and_assoc]
  rw [hvalue]
  constructor
  -- What is read off a type spells it.
  · rintro ⟨kind, subtype, hparts, hkind, hsubtype⟩
    obtain ⟨left, right, parameters, hleft, hright, hp, hmime⟩ := exists_of_mimeParts hparts
    exact ⟨kind, subtype, left, right, parameters, (isWord_iff himage).1 hkind,
      (isWord_iff hnitf).1 hsubtype, hleft, hright, hp, hmime⟩
  · rintro ⟨kind, subtype, left, right, parameters, hkind, hsubtype, hleft, hright, hp, hmime⟩
    have hkind' := isAlphanum_of_sameLetters hkind (List.all_eq_true.1 (by decide))
    have hsubtype' := isAlphanum_of_sameLetters hsubtype (List.all_eq_true.1 (by decide))
    -- Neither blanks nor letters are a slash or a semicolon.
    have hfree : ∀ {c : Char} {word part : List Char}, c.isAlphanum = false → isBlank c = false →
        (∀ d ∈ word, d.isAlphanum = true) → Padded word part → c ∉ part := by
      intro c word part halnum hblank hword hpart hmem
      rw [hword c (hpart.mem_of_mem hblank hmem)] at halnum
      cases halnum
    have hsemicolon : ';' ∉ left ++ '/' :: right := by
      rw [List.mem_append, List.mem_cons, not_or, not_or]
      exact ⟨hfree (by decide) (by decide) hkind' hleft, by decide,
        hfree (by decide) (by decide) hsubtype' hright⟩
    have hslash : '/' ∉ left := hfree (by decide) (by decide) hkind' hleft
    refine ⟨kind, subtype, ?_, (isWord_iff himage).2 hkind, (isWord_iff hnitf).2 hsubtype⟩
    rw [hmime, mimeParts_append hsemicolon hslash hp,
      hleft.trim_eq fun c hc => Text.isBlank_of_isAlphanum (hkind' c hc),
      hright.trim_eq fun c hc => Text.isBlank_of_isAlphanum (hsubtype' c hc)]

/-- Any blanks, either case and any parameters, but no second slash. -/
example : NamesNitf "\u2003ImagE /\tNITF; a/b".toList ∧ ¬ NamesNitf "image/nitf/2".toList := by
  rw [← isNitf_iff, ← isNitf_iff]
  decide

end Mime

/-! ## §4 Sizes -/

/-- Whole megabytes are counted by dividing, with the rest left out. -/
theorem toNat_wholeMegabytes (bytes : UInt64) :
    (wholeMegabytes bytes).toNat = bytes.toNat / 2 ^ 20 :=
  UInt64.toNat_div bytes megabyte

theorem wholeMegabytes_eq_iff {megabytes bytes : UInt64} :
    wholeMegabytes bytes = megabytes ↔ megabytes.toNat = bytes.toNat / 2 ^ 20 := by
  rw [← UInt64.toNat_inj, toNat_wholeMegabytes, eq_comm]

/-- A size is above the limit from one megabyte more than it on. -/
theorem limit_lt_wholeMegabytes_iff (limit bytes : UInt64) :
    limit < wholeMegabytes bytes ↔ (limit.toNat + 1) * 2 ^ 20 ≤ bytes.toNat := by
  rw [UInt64.lt_iff_toNat_lt, toNat_wholeMegabytes, ← Nat.succ_le_iff,
    Nat.le_div_iff_mul_le (by decide)]

/-! ## §5 The gate -/

/-- **The gate decides exactly.** Whatever the settings are, a source passes if its type is written
    as that of the images and its declared size is less than one megabyte above the limit, in
    unbounded numbers. A source of another type is turned away with its type as it was declared,
    whatever its size, and otherwise one that is too large with its whole megabytes and the limit;
    there is no other reason. The gate looks at nothing else of a source. -/
theorem gate_exact (settings : Settings) (resource : Resource) :
    let limit := settings.rendering.maxSourceMb
    let answer := (gate limit (some resource)).value
    let nitf := Mime.NamesNitf resource.mime.toList
    let small := resource.size.toNat < (limit.toNat + 1) * 2 ^ 20
    (answer = .ok () ↔ nitf ∧ small) ∧
    (∀ mime, answer = .error (.notNitf mime) ↔ ¬ nitf ∧ mime = resource.mime) ∧
    (∀ megabytes bound, answer = .error (.tooLarge megabytes bound) ↔
      nitf ∧ ¬ small ∧ megabytes.toNat = resource.size.toNat / 2 ^ 20 ∧ bound = limit) ∧
    answer ≠ .error .missing ∧
    ∀ other : Resource,
      gate limit (some { other with mime := resource.mime, size := resource.size }) =
        gate limit (some resource) := by
  intro limit answer nitf small
  have hanswer : answer = _ := value_gate limit resource
  have htype := Mime.isNitf_iff resource.mime
  have hsize := limit_lt_wholeMegabytes_iff limit resource.size
  -- The type is looked at first, and the size only for the right type.
  by_cases hnitf : nitf
  · rw [if_pos (htype.2 hnitf)] at hanswer
    by_cases hsmall : small
    · rw [if_neg (mt hsize.1 (Nat.not_le.2 hsmall))] at hanswer
      rw [hanswer]
      exact ⟨iff_of_true rfl ⟨hnitf, hsmall⟩, fun _ => iff_of_false nofun fun h => h.1 hnitf,
        fun _ _ => iff_of_false nofun fun h => h.2.1 hsmall, nofun, fun _ => rfl⟩
    · rw [if_pos (hsize.2 (Nat.not_lt.1 hsmall))] at hanswer
      rw [hanswer]
      refine ⟨iff_of_false nofun fun h => hsmall h.2,
        fun _ => iff_of_false nofun fun h => h.1 hnitf,
        fun megabytes bound => ?_, nofun, fun _ => rfl⟩
      rw [Except.error.injEq, Rejection.tooLarge.injEq, wholeMegabytes_eq_iff, eq_comm (a := bound)]
      exact ⟨fun h => ⟨hnitf, hsmall, h⟩, fun h => h.2.2⟩
  · rw [if_neg (mt htype.1 hnitf)] at hanswer
    rw [hanswer]
    refine ⟨iff_of_false nofun fun h => hnitf h.1, fun mime => ?_,
      fun _ _ => iff_of_false nofun fun h => hnitf h.1, nofun, fun _ => rfl⟩
    rw [Except.error.injEq, Rejection.notNitf.injEq, eq_comm]
    exact (and_iff_right hnitf).symm

end Quicklook
