import Mathlib.Data.List.TakeWhile
import Quicklook.Proofs.Text.Trimming
import Quicklook.Proofs.Time.Calendar
import Quicklook.Proofs.Time.Places
import Quicklook.Time.NitfDate

/-!
# The language of dates

Which texts are read as dates, said without the readers. A number may have blanks before it and
has fewer digits than its field is wide only where no digit follows it; a year may have a sign and
then takes all digits that follow. A text is written in a form if it is made up of texts of the
fields of the form.

* `readFields_eq_some_iff`: fields are read from exactly the texts that spell them
* `parseDate_eq_some_iff`: which texts are read as dates, and as which
* `not_isWritten_both`: no text is written in both forms
-/

namespace Quicklook.Time

open Metadata (IsDigits decimal digitsValue_eq_decimal isDigit_iff)
open Text (isBlank trimStart)

/-! ## §1 Numbers -/

/-- No digit stands at the beginning of a text. -/
def NoDigitNext (rest : List Char) : Prop :=
  ∀ c, rest.head? = some c → c.isDigit = false

/-- The digits that a number of a given width takes of a text: fewer than its width only where
    no digit follows. -/
structure Takes (width : ℕ) (ds rest : List Char) : Prop where
  digits : IsDigits ds
  length_le : ds.length ≤ width
  stops : ds.length < width → NoDigitNext rest

/-- A number with the blanks before it, and what follows it. -/
inductive IsNumber (width : ℕ) : List Char → ℕ → List Char → Prop
  | mk {blanks ds rest : List Char} (hb : ∀ b ∈ blanks, isBlank b = true)
      (hd : Takes width ds rest) : IsNumber width (blanks ++ ds) (decimal ds) rest

/-- A year with the blanks before it, and what follows it: up to four digits, or a sign and all
    digits that come next. -/
inductive IsYear : List Char → ℤ → List Char → Prop
  | unsigned {blanks ds rest : List Char} (hb : ∀ b ∈ blanks, isBlank b = true)
      (hd : Takes 4 ds rest) : IsYear (blanks ++ ds) (decimal ds) rest
  | plus {blanks ds rest : List Char} (hb : ∀ b ∈ blanks, isBlank b = true)
      (hd : IsDigits ds) (hr : NoDigitNext rest) : IsYear (blanks ++ '+' :: ds) (decimal ds) rest
  | minus {blanks ds rest : List Char} (hb : ∀ b ∈ blanks, isBlank b = true)
      (hd : IsDigits ds) (hr : NoDigitNext rest) :
      IsYear (blanks ++ '-' :: ds) (-decimal ds) rest

theorem isBlank_of_isDigit {c : Char} (h : c.isDigit = true) : isBlank c = false := by
  have hc := toNat_of_isDigit h
  simp only [isBlank, Bool.or_eq_false_iff, Bool.and_eq_false_iff, decide_eq_false_iff_not,
    beq_eq_false_iff_ne]
  omega

theorem takeWhile_of_noDigitNext {rest : List Char} (h : NoDigitNext rest) :
    rest.takeWhile Char.isDigit = [] := by
  cases rest with
  | nil => rfl
  | cons c rest => simp [h c rfl]

theorem noDigitNext_dropWhile (s : List Char) : NoDigitNext (s.dropWhile Char.isDigit) := by
  intro c hc
  have hhead := List.head?_dropWhile_not Char.isDigit s
  rw [hc] at hhead
  exact hhead

/-- The digits that a number takes can be told from the text. -/
theorem Takes.take_takeWhile {width : ℕ} {ds rest : List Char} (h : Takes width ds rest) :
    ((ds ++ rest).takeWhile Char.isDigit).take width = ds := by
  obtain ⟨hdigits, hle, hstops⟩ := h
  rw [List.takeWhile_append_of_pos (isDigits_iff.1 hdigits).2]
  -- A shorter number is stopped by the text behind it, a full one by its width.
  rcases Nat.lt_or_eq_of_le hle with hlt | heq
  · rw [takeWhile_of_noDigitNext (hstops hlt), List.append_nil, List.take_of_length_le hle]
  · rw [← heq, List.take_left]

/-- Whatever digits are read off the front are taken in this sense. -/
theorem exists_takes {width : ℕ} {s : List Char}
    (h : (s.takeWhile Char.isDigit).take width ≠ []) :
    ∃ rest, Takes width ((s.takeWhile Char.isDigit).take width) rest ∧
      s = (s.takeWhile Char.isDigit).take width ++ rest := by
  have hsplit : (s.takeWhile Char.isDigit).take width ++
      ((s.takeWhile Char.isDigit).drop width ++ s.dropWhile Char.isDigit) = s := by
    rw [← List.append_assoc, List.take_append_drop, List.takeWhile_append_dropWhile]
  refine ⟨_, ⟨isDigits_iff.2 ⟨h, ?_⟩, List.length_take_le .., ?_⟩, hsplit.symm⟩
  · intro d hd
    exact List.mem_takeWhile_imp (List.mem_of_mem_take hd)
  · -- Fewer digits than the width are all that there are.
    intro hlt
    rw [List.length_take] at hlt
    rw [List.drop_of_length_le (by omega), List.nil_append]
    exact noDigitNext_dropWhile s

/-- A number of a width is read from exactly the digits that it takes. -/
theorem readDigits_eq_some_iff {width n : ℕ} {s t : List Char} :
    readDigits width s = some (n, t) ↔ ∃ ds, Takes width ds t ∧ s = ds ++ t ∧ n = decimal ds := by
  constructor
  · intro h
    simp only [readDigits] at h
    split at h
    · cases h
    · rename_i hne
      obtain ⟨rest, htakes, hs⟩ := exists_takes (by simpa using hne)
      simp only [Option.some.injEq, Prod.mk.injEq] at h
      obtain ⟨rfl, rfl⟩ := h
      -- What is left is counted off by the number of digits that were taken.
      have hdrop : s.drop ((s.takeWhile Char.isDigit).take width).length = rest := by
        nth_rewrite 2 [hs]
        rw [List.drop_left]
      rw [hdrop]
      exact ⟨_, htakes, hs, digitsValue_eq_decimal _⟩
  · rintro ⟨ds, hds, rfl, rfl⟩
    have hne := hds.digits.1
    simp only [readDigits, hds.take_takeWhile, digitsValue_eq_decimal, List.drop_left]

/-- A text is some blanks and what is left of it without them. -/
theorem exists_blanks (s : List Char) :
    ∃ blanks, (∀ b ∈ blanks, isBlank b = true) ∧ s = blanks ++ trimStart s :=
  ⟨s.takeWhile isBlank, fun _ => List.mem_takeWhile_imp,
    List.takeWhile_append_dropWhile.symm⟩

theorem isDigit_of_head?_append {ds : List Char} (h : IsDigits ds) (rest : List Char) :
    ∀ c, (ds ++ rest).head? = some c → c.isDigit = true := by
  obtain ⟨hne, hall⟩ := isDigits_iff.1 h
  cases ds with
  | nil => contradiction
  | cons d ds =>
    rintro c ⟨⟩
    exact hall d List.mem_cons_self

/-- Blanks before digits are all the blanks that there are. -/
theorem trimStart_append_digits {blanks ds : List Char} (hb : ∀ b ∈ blanks, isBlank b = true)
    (hd : IsDigits ds) (rest : List Char) : trimStart (blanks ++ ds ++ rest) = ds ++ rest := by
  rw [List.append_assoc]
  exact Text.trimStart_append hb fun c hc =>
    isBlank_of_isDigit (isDigit_of_head?_append hd rest c hc)

theorem trimStart_append_sign {blanks : List Char} {sign : Char}
    (hb : ∀ b ∈ blanks, isBlank b = true) (hsign : isBlank sign = false) (ds rest : List Char) :
    trimStart (blanks ++ sign :: ds ++ rest) = sign :: (ds ++ rest) := by
  rw [List.append_assoc]
  exact Text.trimStart_append hb fun c hc => by cases hc; exact hsign

/-- A number is read from exactly the texts that are one. -/
theorem readNumber_eq_some_iff {width n : ℕ} {s t : List Char} :
    readNumber width s = some (n, t) ↔ ∃ text, IsNumber width text n t ∧ s = text ++ t := by
  rw [readNumber, readDigits_eq_some_iff]
  constructor
  · rintro ⟨ds, hds, hs, rfl⟩
    obtain ⟨blanks, hb, hsplit⟩ := exists_blanks s
    exact ⟨blanks ++ ds, ⟨hb, hds⟩, by rw [hsplit, hs, List.append_assoc]⟩
  · rintro ⟨_, ⟨hb, hds⟩, rfl⟩
    exact ⟨_, hds, trimStart_append_digits hb hds.digits t, rfl⟩

/-- With as many places as there are characters, a number stops only where no digit follows. -/
theorem takes_length_iff {ds rest : List Char} :
    Takes (ds ++ rest).length ds rest ↔ IsDigits ds ∧ NoDigitNext rest := by
  constructor
  · rintro ⟨hd, -, hstops⟩
    refine ⟨hd, fun c hc => ?_⟩
    refine hstops ?_ c hc
    cases rest with
    | nil => cases hc
    | cons d rest => simp
  · rintro ⟨hd, hr⟩
    exact ⟨hd, by simp, fun _ => hr⟩

theorem readDigits_length_eq_some_iff {n : ℕ} {s t : List Char} :
    readDigits s.length s = some (n, t) ↔
      ∃ ds, IsDigits ds ∧ NoDigitNext t ∧ s = ds ++ t ∧ n = decimal ds := by
  rw [readDigits_eq_some_iff]
  refine exists_congr fun ds => ?_
  constructor
  · rintro ⟨hds, rfl, rfl⟩
    obtain ⟨hd, hr⟩ := takes_length_iff.1 hds
    exact ⟨hd, hr, rfl, rfl⟩
  · rintro ⟨hd, hr, rfl, rfl⟩
    exact ⟨takes_length_iff.2 ⟨hd, hr⟩, rfl, rfl⟩

/-- The first part of what is read is taken through a function. -/
theorem map_eq_some_iff {α β : Type} (f : α → β) {r : Option (α × List Char)} {b : β}
    {t : List Char} :
    (r.map fun x => (f x.1, x.2)) = some (b, t) ↔ ∃ a, r = some (a, t) ∧ b = f a := by
  rw [Option.map_eq_some_iff]
  constructor
  · rintro ⟨⟨a, u⟩, hr, heq⟩
    obtain ⟨rfl, rfl⟩ := Prod.mk.inj heq
    exact ⟨a, hr, rfl⟩
  · rintro ⟨a, hr, rfl⟩
    exact ⟨(a, t), hr, rfl⟩

/-- A year is read from exactly the texts that are one. -/
theorem readYear_eq_some_iff {y : ℤ} {s t : List Char} :
    readYear s = some (y, t) ↔ ∃ text, IsYear text y t ∧ s = text ++ t := by
  constructor
  · intro h
    obtain ⟨blanks, hb, hsplit⟩ := exists_blanks s
    simp only [readYear] at h
    -- The cases are a minus sign, a plus sign and no sign at all.
    split at h
    · rename_i hs
      obtain ⟨n, hread, rfl⟩ := (map_eq_some_iff fun n : ℕ => -(n : ℤ)).1 h
      obtain ⟨ds, hd, hr, rfl, rfl⟩ := readDigits_length_eq_some_iff.1 hread
      exact ⟨_, .minus hb hd hr, by rw [hsplit, hs, List.append_assoc, List.cons_append]⟩
    · rename_i hs
      obtain ⟨n, hread, rfl⟩ := (map_eq_some_iff Nat.cast).1 h
      obtain ⟨ds, hd, hr, rfl, rfl⟩ := readDigits_length_eq_some_iff.1 hread
      exact ⟨_, .plus hb hd hr, by rw [hsplit, hs, List.append_assoc, List.cons_append]⟩
    · obtain ⟨n, hread, rfl⟩ := (map_eq_some_iff Nat.cast).1 h
      obtain ⟨ds, hds, hs, rfl⟩ := readDigits_eq_some_iff.1 hread
      exact ⟨_, .unsigned hb hds, by rw [hsplit, hs, List.append_assoc]⟩
  · rintro ⟨_, ⟨hb, hds⟩ | ⟨hb, hd, hr⟩ | ⟨hb, hd, hr⟩, rfl⟩
    · have htrim := trimStart_append_digits hb hds.digits t
      have hhead := isDigit_of_head?_append hds.digits t
      simp only [readYear, htrim]
      split
      -- Neither sign is a digit.
      · rename_i hs
        exact absurd (hhead '-' (by rw [hs]; rfl)) (by decide)
      · rename_i hs
        exact absurd (hhead '+' (by rw [hs]; rfl)) (by decide)
      · exact (map_eq_some_iff Nat.cast).2 ⟨_, readDigits_eq_some_iff.2 ⟨_, hds, rfl, rfl⟩, rfl⟩
    · have htrim := trimStart_append_sign hb (by decide : isBlank '+' = false)
      simp only [readYear, htrim]
      exact (map_eq_some_iff Nat.cast).2
        ⟨_, readDigits_length_eq_some_iff.2 ⟨_, hd, hr, rfl, rfl⟩, rfl⟩
    · have htrim := trimStart_append_sign hb (by decide : isBlank '-' = false)
      simp only [readYear, htrim]
      exact (map_eq_some_iff fun n : ℕ => -(n : ℤ)).2
        ⟨_, readDigits_length_eq_some_iff.2 ⟨_, hd, hr, rfl, rfl⟩, rfl⟩

/-! ## §2 Fields -/

/-- The year that two digits stand for. -/
def fullYear (n : ℕ) : ℤ :=
  (if n < 70 then 2000 else 1900) + n

/-- A text is the abbreviation of a month, in either case. -/
def IsMonthName (name : List Char) (m : ℕ) : Prop :=
  1 ≤ m ∧ monthNames[m - 1]? = some (name.map Char.toLower)

instance (name : List Char) (m : ℕ) : Decidable (IsMonthName name m) :=
  inferInstanceAs (Decidable (_ ∧ _))

theorem IsMonthName.le {name : List Char} {m : ℕ} (h : IsMonthName name m) : m ≤ 12 := by
  obtain ⟨hlt, -⟩ := List.getElem?_eq_some_iff.1 h.2
  have hlen : monthNames.length = 12 := rfl
  omega

theorem IsMonthName.map_mem {name : List Char} {m : ℕ} (h : IsMonthName name m) :
    name.map Char.toLower ∈ monthNames :=
  List.mem_of_getElem? h.2

theorem IsMonthName.length {name : List Char} {m : ℕ} (h : IsMonthName name m) :
    name.length = 3 := by
  have hall : ∀ n ∈ monthNames, n.length = 3 := by decide
  rw [← List.length_map (f := Char.toLower), hall _ h.map_mem]

/-- The name of a month is read from its first three letters. -/
theorem readMonthName_eq_some_iff {m : ℕ} {s t : List Char} :
    readMonthName s = some (m, t) ↔ ∃ name, IsMonthName name m ∧ s = name ++ t := by
  have hnodup : monthNames.Nodup := by decide
  rw [readMonthName, Option.map_eq_some_iff]
  constructor
  · rintro ⟨i, hi, heq⟩
    obtain ⟨rfl, rfl⟩ := Prod.mk.inj heq
    obtain ⟨hlt, hname, -⟩ := List.idxOf?_eq_some_iff.1 hi
    refine ⟨s.take 3, ⟨Nat.le_add_left 1 i, ?_⟩, (List.take_append_drop 3 s).symm⟩
    rw [Nat.add_sub_cancel, List.getElem?_eq_getElem hlt, hname]
  · rintro ⟨name, hname, rfl⟩
    have htake : (name ++ t).take 3 = name := by rw [← hname.length, List.take_left]
    have hdrop : (name ++ t).drop 3 = t := by rw [← hname.length, List.drop_left]
    obtain ⟨hpos, hget⟩ := hname
    obtain ⟨hlt, hname⟩ := List.getElem?_eq_some_iff.1 hget
    refine ⟨m - 1, ?_, ?_⟩
    · rw [htake, List.idxOf?_eq_some_iff]
      refine ⟨hlt, hname, fun j hj hsame => ?_⟩
      -- The months have different names, so the first that fits is this one.
      have hsame := hnodup.getElem_inj_iff.1 (hsame.trans hname.symm)
      omega
    · rw [hdrop, Nat.sub_add_cancel hpos]

/-- A text, followed by `rest`, spells a field of a date: entered into `c` it gives `c'`. -/
def DateField.Spells (c : Civil) (text rest : List Char) (c' : Civil) : DateField → Prop
  | .year => ∃ y, IsYear text y rest ∧ c' = { c with year := y }
  | .shortYear => ∃ n, IsNumber 2 text n rest ∧ c' = { c with year := fullYear n }
  | .month => ∃ n, IsNumber 2 text n rest ∧ c' = { c with month := n }
  | .monthName => ∃ n, IsMonthName text n ∧ c' = { c with month := n }
  | .day => ∃ n, IsNumber 2 text n rest ∧ c' = { c with day := n }
  | .hour => ∃ n, IsNumber 2 text n rest ∧ c' = { c with hour := n }
  | .minute => ∃ n, IsNumber 2 text n rest ∧ c' = { c with minute := n }
  | .second => ∃ n, IsNumber 2 text n rest ∧ c' = { c with second := n }
  | .literal l => text = [l] ∧ c' = c

/-- The texts of a reader are those of a field, if what is read is entered into it. -/
private theorem map_eq_some_iff_exists {α : Type} {P : List Char → α → Prop} (f : α → Civil)
    {r : Option (α × List Char)} {c' : Civil} {s t : List Char}
    (h : ∀ a, r = some (a, t) ↔ ∃ text, P text a ∧ s = text ++ t) :
    (r.map fun x => (f x.1, x.2)) = some (c', t) ↔
      ∃ text, (∃ a, P text a ∧ c' = f a) ∧ s = text ++ t := by
  rw [map_eq_some_iff]
  constructor
  · rintro ⟨a, hr, rfl⟩
    obtain ⟨text, htext, hs⟩ := (h a).1 hr
    exact ⟨text, ⟨a, htext, rfl⟩, hs⟩
  · rintro ⟨text, ⟨a, htext, rfl⟩, hs⟩
    exact ⟨a, (h a).2 ⟨text, htext, hs⟩, rfl⟩

/-- A field is read from exactly the texts that spell it. -/
theorem DateField.read_eq_some_iff {f : DateField} {c c' : Civil} {s t : List Char} :
    f.read c s = some (c', t) ↔ ∃ text, f.Spells c text t c' ∧ s = text ++ t := by
  cases f with
  | year => exact map_eq_some_iff_exists ({ c with year := · }) fun _ => readYear_eq_some_iff
  | shortYear =>
    exact map_eq_some_iff_exists (fun n => { c with year := fullYear n })
      fun _ => readNumber_eq_some_iff
  | month => exact map_eq_some_iff_exists ({ c with month := · }) fun _ => readNumber_eq_some_iff
  | monthName =>
    exact map_eq_some_iff_exists ({ c with month := · }) fun _ => readMonthName_eq_some_iff
  | day => exact map_eq_some_iff_exists ({ c with day := · }) fun _ => readNumber_eq_some_iff
  | hour => exact map_eq_some_iff_exists ({ c with hour := · }) fun _ => readNumber_eq_some_iff
  | minute => exact map_eq_some_iff_exists ({ c with minute := · }) fun _ => readNumber_eq_some_iff
  | second => exact map_eq_some_iff_exists ({ c with second := · }) fun _ => readNumber_eq_some_iff
  | literal l =>
    -- The only field that has no reader of its own and enters nothing.
    cases s with
    | nil => simp [read, Spells]
    | cons d s =>
      by_cases hd : d = l
      · simp [read, Spells, hd, eq_comm, and_comm]
      · simp [read, Spells, hd]

/-! ## §3 Forms -/

/-- A text spells the fields of a form, one after another. -/
inductive Spells : List DateField → Civil → List Char → List Char → Civil → Prop
  | nil {c : Civil} {rest : List Char} : Spells [] c [] rest c
  | cons {f : DateField} {fs : List DateField} {c c' c'' : Civil} {text more rest : List Char}
      (hf : f.Spells c text (more ++ rest) c') (hfs : Spells fs c' more rest c'') :
      Spells (f :: fs) c (text ++ more) rest c''

theorem Spells.single {f : DateField} {c c' : Civil} {text rest : List Char}
    (hf : f.Spells c text rest c') : Spells [f] c text rest c' := by
  have h : Spells [f] c (text ++ []) rest c' := .cons hf .nil
  rwa [List.append_nil] at h

/-- Fields are read from exactly the texts that spell them. -/
theorem readFields_eq_some_iff {fs : List DateField} {c c' : Civil} {s t : List Char} :
    readFields c s fs = some (c', t) ↔ ∃ text, Spells fs c text t c' ∧ s = text ++ t := by
  -- Each field is entered into the date that the fields before it have left.
  induction fs generalizing c s with
  | nil =>
    constructor
    · rintro ⟨⟩
      exact ⟨[], .nil, rfl⟩
    · rintro ⟨_, ⟨⟩, rfl⟩
      rfl
  | cons f fs ih =>
    constructor
    · intro h
      simp only [readFields] at h
      split at h
      · rename_i d u hread
        obtain ⟨more, hfs, rfl⟩ := ih.1 h
        obtain ⟨text, hf, rfl⟩ := DateField.read_eq_some_iff.1 hread
        exact ⟨text ++ more, .cons hf hfs, (List.append_assoc ..).symm⟩
      · cases h
    · rintro ⟨_, _ | ⟨hf, hfs⟩, rfl⟩
      have hread := DateField.read_eq_some_iff.2 ⟨_, hf, rfl⟩
      simp only [readFields, List.append_assoc, hread]
      exact ih.2 ⟨_, hfs, rfl⟩

/-- What spells the first fields of a form can be read off the front of a text. -/
theorem readFields_append {fs gs : List DateField} {c c' : Civil} {text rest : List Char}
    (h : Spells fs c text rest c') :
    readFields c (text ++ rest) (fs ++ gs) = readFields c' rest gs := by
  induction h with
  | nil => rfl
  | cons hf hfs ih =>
    have hread := DateField.read_eq_some_iff.2 ⟨_, hf, rfl⟩
    simp only [List.cons_append, readFields, List.append_assoc, hread]
    exact ih

/-- A text is written in a form and gives a date, which may or may not exist. -/
def IsWritten (form : List DateField) (s : List Char) (c : Civil) : Prop :=
  Spells form ⟨0, 0, 0, 0, 0, 0⟩ s [] c

variable {form : List DateField} {s : List Char} {c : Civil}

/-- A text is written in a form if its fields are read off it and nothing is left. -/
theorem isWritten_iff :
    IsWritten form s c ↔ readFields ⟨0, 0, 0, 0, 0, 0⟩ s form = some (c, []) := by
  simp [IsWritten, readFields_eq_some_iff]

/-- A text gives one date in a form. -/
theorem IsWritten.eq {d : Civil} (hc : IsWritten form s c) (hd : IsWritten form s d) : c = d := by
  have hread := (isWritten_iff.1 hc).symm.trans (isWritten_iff.1 hd)
  simpa using hread

/-- A form gives the dates that it spells and that there are. -/
theorem readForm_eq_some_iff : readForm form s = some c ↔ c.Valid ∧ IsWritten form s c := by
  rw [isWritten_iff, readForm]
  split
  · rename_i d hread
    rw [Option.ite_none_right_eq_some]
    constructor
    · rintro ⟨hvalid, ⟨⟩⟩
      exact ⟨hvalid, hread⟩
    · rintro ⟨hvalid, hread'⟩
      obtain rfl : d = c := by simpa [hread] using hread'
      exact ⟨hvalid, rfl⟩
  · rename_i hno
    simp only [reduceCtorEq, false_iff, not_and]
    exact fun _ => hno c

/-- The parts of a text in the form that begins with the year. -/
theorem IsWritten.full (h : IsWritten fullForm s c) :
    ∃ year month day hour minute second,
      s = year ++ (month ++ (day ++ (hour ++ (minute ++ second)))) ∧
      IsYear year c.year (month ++ (day ++ (hour ++ (minute ++ second)))) ∧
      IsNumber 2 month c.month (day ++ (hour ++ (minute ++ second))) ∧
      IsNumber 2 day c.day (hour ++ (minute ++ second)) ∧
      IsNumber 2 hour c.hour (minute ++ second) ∧
      IsNumber 2 minute c.minute second ∧ IsNumber 2 second c.second [] := by
  -- Six fields, one after the other, and nothing behind the last.
  obtain _ | ⟨⟨_, hy, rfl⟩, _ | ⟨⟨_, hm, rfl⟩, _ | ⟨⟨_, hd, rfl⟩, _ | ⟨⟨_, hh, rfl⟩,
    _ | ⟨⟨_, hi, rfl⟩, _ | ⟨⟨_, hs, rfl⟩, _ | _⟩⟩⟩⟩⟩⟩ := h
  simp only [List.append_nil] at *
  exact ⟨_, _, _, _, _, _, rfl, hy, hm, hd, hh, hi, hs⟩

/-- The parts of a text in the form that begins with the day. -/
theorem IsWritten.dayFirst (h : IsWritten dayFirstForm s c) :
    ∃ day hour minute second name year n,
      s = day ++ (hour ++ (minute ++ (second ++ 'Z' :: (name ++ year)))) ∧
      IsNumber 2 day c.day (hour ++ (minute ++ (second ++ 'Z' :: (name ++ year)))) ∧
      IsNumber 2 hour c.hour (minute ++ (second ++ 'Z' :: (name ++ year))) ∧
      IsNumber 2 minute c.minute (second ++ 'Z' :: (name ++ year)) ∧
      IsNumber 2 second c.second ('Z' :: (name ++ year)) ∧
      IsMonthName name c.month ∧ IsNumber 2 year n [] ∧ c.year = fullYear n := by
  obtain _ | ⟨⟨_, hd, rfl⟩, _ | ⟨⟨_, hh, rfl⟩, _ | ⟨⟨_, hi, rfl⟩, _ | ⟨⟨_, hs, rfl⟩,
    _ | ⟨⟨rfl, rfl⟩, _ | ⟨⟨_, hm, rfl⟩, _ | ⟨⟨_, hy, rfl⟩, _ | _⟩⟩⟩⟩⟩⟩⟩ := h
  simp only [List.append_nil, List.singleton_append] at *
  exact ⟨_, _, _, _, _, _, _, rfl, hd, hh, hi, hs, hm, hy, rfl⟩

/-! ## §4 Dates -/

theorem IsNumber.blank_or_digit {width n : ℕ} {text rest : List Char}
    (h : IsNumber width text n rest) {ch : Char} (hch : ch ∈ text) :
    isBlank ch = true ∨ ch.isDigit = true := by
  obtain ⟨hb, hd⟩ := h
  rcases List.mem_append.1 hch with hch | hch
  · exact .inl (hb ch hch)
  · exact .inr ((isDigits_iff.1 hd.digits).2 ch hch)

private theorem blank_or_digit_or_eq {blanks ds : List Char} {sign ch : Char}
    (hb : ∀ b ∈ blanks, isBlank b = true) (hd : IsDigits ds) (hch : ch ∈ blanks ++ sign :: ds) :
    (isBlank ch = true ∨ ch.isDigit = true) ∨ ch = sign := by
  rcases List.mem_append.1 hch with hch | hch
  · exact .inl (.inl (hb ch hch))
  · rcases List.mem_cons.1 hch with rfl | hch
    · exact .inr rfl
    · exact .inl (.inr ((isDigits_iff.1 hd).2 ch hch))

theorem IsYear.blank_or_digit_or_sign {y : ℤ} {text rest : List Char} (h : IsYear text y rest)
    {ch : Char} (hch : ch ∈ text) :
    (isBlank ch = true ∨ ch.isDigit = true) ∨ ch = '+' ∨ ch = '-' := by
  rcases h with ⟨hb, hd⟩ | ⟨hb, hd, -⟩ | ⟨hb, hd, -⟩
  · exact .inl ((IsNumber.mk hb hd).blank_or_digit hch)
  · exact (blank_or_digit_or_eq hb hd hch).imp_right .inl
  · exact (blank_or_digit_or_eq hb hd hch).imp_right .inr

/-- The letter between the time of day and the month is in no text that begins with a year. -/
theorem IsWritten.not_mem_Z (h : IsWritten fullForm s c) : 'Z' ∉ s := by
  obtain ⟨year, month, day, hour, minute, second, rfl, hy, hm, hd, hh, hi, hs⟩ := h.full
  have hnumber : ¬ (isBlank 'Z' = true ∨ 'Z'.isDigit = true) := by decide
  have hsign : ¬ ('Z' = '+' ∨ 'Z' = '-') := by decide
  -- None of the six parts has the letter, and together they are the text.
  simp only [List.mem_append, not_or]
  exact ⟨fun hz => (hy.blank_or_digit_or_sign hz).elim hnumber hsign,
    fun hz => hnumber (hm.blank_or_digit hz), fun hz => hnumber (hd.blank_or_digit hz),
    fun hz => hnumber (hh.blank_or_digit hz), fun hz => hnumber (hi.blank_or_digit hz),
    fun hz => hnumber (hs.blank_or_digit hz)⟩

theorem IsWritten.mem_Z (h : IsWritten dayFirstForm s c) : 'Z' ∈ s := by
  obtain ⟨day, hour, minute, second, name, year, n, rfl, -⟩ := h.dayFirst
  simp

/-- No text is written in both forms. -/
theorem not_isWritten_both {d : Civil} :
    ¬ (IsWritten fullForm s c ∧ IsWritten dayFirstForm s d) :=
  fun ⟨hfull, hday⟩ => hfull.not_mem_Z hday.mem_Z

/-- The second form is tried where the first one does not fit, and this misses nothing. -/
theorem readDate_eq_some_iff {s : List Char} :
    readDate s = some c ↔
      c.Valid ∧ (IsWritten fullForm (Text.trim s) c ∨ IsWritten dayFirstForm (Text.trim s) c) := by
  simp only [readDate, Option.or_eq_some_iff, and_or_left, readForm_eq_some_iff]
  refine or_congr_right ⟨And.right, fun h => ⟨?_, h⟩⟩
  -- Where the second form fits, the first one does not.
  cases hfull : readForm fullForm (Text.trim s) with
  | none => rfl
  | some d => exact absurd ⟨(readForm_eq_some_iff.1 hfull).2, h.2⟩ not_isWritten_both

/-- **Which texts are read as dates.** Those that are written in one of the two forms, blanks
    around them left out, and that give a date which occurs in the years that a timestamp
    covers; what is read is the instant of the date. -/
theorem parseDate_eq_some_iff {raw : String} {t : Timestamp} :
    parseDate raw = some t ↔
      ∃ c : Civil, (IsWritten fullForm (Text.trim raw.toList) c ∨
          IsWritten dayFirstForm (Text.trim raw.toList) c) ∧
        c.Occurs ∧ -262143 ≤ c.year ∧ c.year ≤ 262142 ∧ c.Names t := by
  simp only [parseDate, Option.map_eq_some_iff, readDate_eq_some_iff, Civil.valid_iff]
  refine exists_congr fun c => ?_
  constructor
  · rintro ⟨⟨⟨hocc, hlow, hhigh⟩, hwritten⟩, rfl⟩
    exact ⟨hwritten, hocc, hlow, hhigh, (Civil.names_iff hocc).2 rfl⟩
  · rintro ⟨hwritten, hocc, hlow, hhigh, hnames⟩
    exact ⟨⟨⟨hocc, hlow, hhigh⟩, hwritten⟩, ((Civil.names_iff hocc).1 hnames).symm⟩

/-- A text that is written in a form is read as its date, if there is such a date. -/
theorem parseDate_of_isWritten {raw : String}
    (h : IsWritten fullForm (Text.trim raw.toList) c ∨
      IsWritten dayFirstForm (Text.trim raw.toList) c) {t : Timestamp} :
    parseDate raw = some t ↔ c.Occurs ∧ -262143 ≤ c.year ∧ c.year ≤ 262142 ∧ c.Names t := by
  rw [parseDate_eq_some_iff]
  constructor
  · rintro ⟨d, hd, hread⟩
    obtain rfl : d = c := by
      -- Of the two forms only the same one can fit again.
      rcases h with hfull | hday <;> rcases hd with hfull' | hday'
      · exact hfull'.eq hfull
      · exact absurd ⟨hfull, hday'⟩ not_isWritten_both
      · exact absurd ⟨hfull', hday⟩ not_isWritten_both
      · exact hday'.eq hday
    exact hread
  · intro hread
    exact ⟨c, h, hread⟩

end Quicklook.Time
