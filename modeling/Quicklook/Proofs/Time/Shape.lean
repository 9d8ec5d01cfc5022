import Quicklook.Proofs.Time.Grammar

/-!
# The shape of dates

The forms describe texts of fourteen characters: fourteen digits, or eight digits, a `Z`, a month
abbreviation and two digits. More texts than these are read as dates, since a field may have
blanks before it and need not be filled. What sets the others apart is that they are too short or
have blanks inside.

* `isShaped_iff`: the texts of either form that have the shape
* `parseDate_isShaped_iff`: the same of all that is read as a date
* `not_forall_parseDate_isShaped`: a date of thirteen digits
-/

namespace Quicklook.Time

open Metadata (IsDigits decimal)
open Text (isBlank)

/-! ## §1 Shapes -/

/-- A text has one of the two shapes that the forms describe. -/
inductive IsShaped : List Char → Prop
  | full {ds : List Char} (hds : IsDigits ds) (hlen : ds.length = 14) : IsShaped ds
  | dayFirst {ds name year : List Char} {m : ℕ} (hds : IsDigits ds) (hlen : ds.length = 8)
      (hname : IsMonthName name m) (hyear : IsDigits year) (hlen' : year.length = 2) :
      IsShaped (ds ++ 'Z' :: (name ++ year))

/-- No blank is among the characters of a text. -/
def NoBlank (s : List Char) : Prop :=
  ∀ ch ∈ s, isBlank ch = false

theorem noBlank_append_iff {s t : List Char} : NoBlank (s ++ t) ↔ NoBlank s ∧ NoBlank t := by
  simp only [NoBlank, List.mem_append, or_imp, forall_and]

theorem noBlank_cons_iff {ch : Char} {s : List Char} :
    NoBlank (ch :: s) ↔ isBlank ch = false ∧ NoBlank s :=
  List.forall_mem_cons

theorem noBlank_of_isDigits {ds : List Char} (h : IsDigits ds) : NoBlank ds :=
  fun ch hch => isBlank_of_isDigit ((isDigits_iff.1 h).2 ch hch)

/-- What has a small letter for its lower case lies between the two alphabets of ASCII. -/
theorem toNat_bounds_of_toLower {ch : Char}
    (h : 97 ≤ ch.toLower.toNat ∧ ch.toLower.toNat ≤ 122) :
    65 ≤ ch.toNat ∧ ch.toNat ≤ 122 := by
  have hA : 'A'.toNat = 65 := rfl
  have hZ : 'Z'.toNat = 90 := rfl
  unfold Char.toLower at h
  -- A capital letter was moved up by 32, and anything else is where it was.
  split at h
  · rename_i hupper
    simp only [ge_iff_le, UInt32.le_iff_toNat_le, Char.toNat_val] at hupper
    omega
  · omega

/-- The letters of a month are no blanks, in either case. -/
theorem noBlank_of_isMonthName {name : List Char} {m : ℕ} (h : IsMonthName name m) :
    NoBlank name := by
  intro ch hch
  have hall : ∀ n ∈ monthNames, n.all (fun l => 97 ≤ l.toNat && l.toNat ≤ 122) = true := by
    decide
  -- The letters of the abbreviations are all between `a` and `z`.
  have hlower := List.all_eq_true.1 (hall _ h.map_mem) _ (List.mem_map_of_mem hch)
  rw [Bool.and_eq_true, decide_eq_true_iff, decide_eq_true_iff] at hlower
  have hrange := toNat_bounds_of_toLower hlower
  simp only [isBlank, Bool.or_eq_false_iff, Bool.and_eq_false_iff, decide_eq_false_iff_not,
    beq_eq_false_iff_ne]
  omega

/-- Of a text without blanks inside nothing but the blanks around it is trimmed. -/
theorem trim_append_of_noBlank {front s back : List Char}
    (hfront : ∀ b ∈ front, isBlank b = true) (hback : ∀ b ∈ back, isBlank b = true)
    (h : NoBlank s) : Text.trim (front ++ s ++ back) = s :=
  Text.trim_append hfront hback (fun c hc => h c (List.mem_of_head? hc))
    fun c hc => h c (List.mem_of_getLast? hc)

theorem trim_of_noBlank {s : List Char} (h : NoBlank s) : Text.trim s = s := by
  simpa using trim_append_of_noBlank (List.forall_mem_nil _) (List.forall_mem_nil _) h

/-- Both shapes have fourteen characters. -/
theorem IsShaped.length {s : List Char} (h : IsShaped s) : s.length = 14 := by
  cases h with
  | full hds hlen => exact hlen
  | dayFirst hds hlen hname hyear hlen' => simp [hlen, hname.length, hlen']

theorem IsShaped.noBlank {s : List Char} (h : IsShaped s) : NoBlank s := by
  cases h with
  | full hds hlen => exact noBlank_of_isDigits hds
  | dayFirst hds hlen hname hyear hlen' =>
    rw [noBlank_append_iff, noBlank_cons_iff, noBlank_append_iff]
    exact ⟨noBlank_of_isDigits hds, by decide, noBlank_of_isMonthName hname,
      noBlank_of_isDigits hyear⟩

/-! ## §2 Texts without blanks -/

variable {s : List Char} {c : Civil}

theorem eq_nil_of_noBlank {blanks : List Char} (hb : ∀ b ∈ blanks, isBlank b = true)
    (h : NoBlank blanks) : blanks = [] := by
  cases blanks with
  | nil => rfl
  | cons b blanks =>
    have hb := hb b List.mem_cons_self
    rw [h b List.mem_cons_self] at hb
    cases hb

/-- Without blanks a number is its digits. -/
theorem IsNumber.takes {width n : ℕ} {text rest : List Char} (h : IsNumber width text n rest)
    (hb : NoBlank text) : Takes width text rest ∧ n = decimal text := by
  obtain ⟨hblanks, hd⟩ := h
  obtain rfl := eq_nil_of_noBlank hblanks (noBlank_append_iff.1 hb).1
  exact ⟨hd, rfl⟩

/-- A year with a sign takes all digits after it, so that only blanks can set off the month. -/
theorem IsYear.takes {y : ℤ} {text rest : List Char} (h : IsYear text y rest)
    (hb : NoBlank text) (hnext : ¬ NoDigitNext rest) : Takes 4 text rest := by
  -- After a sign all digits that follow are taken, but here one is left.
  rcases h with ⟨hblanks, hd⟩ | ⟨-, -, hr⟩ | ⟨-, -, hr⟩
  · exact ((IsNumber.mk hblanks hd).takes hb).1
  · exact absurd hr hnext
  · exact absurd hr hnext

theorem not_noDigitNext_append {ds : List Char} (h : IsDigits ds) (rest : List Char) :
    ¬ NoDigitNext (ds ++ rest) := by
  intro hnone
  obtain ⟨hne, hall⟩ := isDigits_iff.1 h
  cases ds with
  | nil => contradiction
  | cons d ds =>
    have hdigit := hall d List.mem_cons_self
    rw [hnone d rfl] at hdigit
    cases hdigit

theorem isDigits_append {s t : List Char} (hs : IsDigits s) (ht : IsDigits t) :
    IsDigits (s ++ t) := by
  rw [isDigits_iff] at *
  refine ⟨List.append_ne_nil_of_left_ne_nil hs.1 t, fun d hd => ?_⟩
  exact (List.mem_append.1 hd).elim (hs.2 d) (ht.2 d)

/-- A text without blanks that begins with the year is digits throughout, fourteen at most. -/
theorem IsWritten.isDigits_of_noBlank (h : IsWritten fullForm s c) (hb : NoBlank s) :
    IsDigits s ∧ s.length ≤ 14 := by
  obtain ⟨year, month, day, hour, minute, second, rfl, hy, hm, hd, hh, hi, hs⟩ := h.full
  simp only [noBlank_append_iff] at hb
  -- Without blanks each number is the digits it is written with.
  obtain ⟨hby, hbm, hbd, hbh, hbi, hbs⟩ := hb
  have hm := (hm.takes hbm).1
  have hd := (hd.takes hbd).1
  have hh := (hh.takes hbh).1
  have hi := (hi.takes hbi).1
  have hs := (hs.takes hbs).1
  -- The month begins with a digit, so the year has no sign.
  have hy := hy.takes hby (not_noDigitNext_append hm.digits _)
  constructor
  · exact isDigits_append hy.digits <| isDigits_append hm.digits <| isDigits_append hd.digits <|
      isDigits_append hh.digits <| isDigits_append hi.digits hs.digits
  · have hylen := hy.length_le
    have hmlen := hm.length_le
    have hdlen := hd.length_le
    have hhlen := hh.length_le
    have hilen := hi.length_le
    have hslen := hs.length_le
    simp only [List.length_append]
    omega

/-- A text without blanks that begins with the day has all of its fields filled if it has
    fourteen characters. -/
theorem IsWritten.isShaped_of_noBlank (h : IsWritten dayFirstForm s c) (hb : NoBlank s)
    (hlen : 14 ≤ s.length) : IsShaped s := by
  obtain ⟨day, hour, minute, second, name, year, n, rfl, hd, hh, hi, hs, hm, hy, -⟩ := h.dayFirst
  simp only [noBlank_append_iff, noBlank_cons_iff] at hb
  obtain ⟨hbd, hbh, hbi, hbs, -, -, hby⟩ := hb
  have hd := (hd.takes hbd).1
  have hh := (hh.takes hbh).1
  have hi := (hi.takes hbi).1
  have hs := (hs.takes hbs).1
  have hy := (hy.takes hby).1
  have hdlen := hd.length_le
  have hhlen := hh.length_le
  have hilen := hi.length_le
  have hslen := hs.length_le
  have hylen := hy.length_le
  -- The widths add up to fourteen, so that no field can be shorter.
  simp only [List.length_append, List.length_cons, hm.length] at hlen
  have hds : IsDigits (day ++ (hour ++ (minute ++ second))) :=
    isDigits_append hd.digits <| isDigits_append hh.digits <|
      isDigits_append hi.digits hs.digits
  have hdslen : (day ++ (hour ++ (minute ++ second))).length = 8 := by
    simp only [List.length_append]
    omega
  have hshape := IsShaped.dayFirst hds hdslen hm hy.digits (by omega)
  simpa only [List.append_assoc] using hshape

/-- Of the texts that are written in one of the forms, those have the shape that are long enough
    and without blanks. -/
theorem isShaped_iff (h : IsWritten fullForm s c ∨ IsWritten dayFirstForm s c) :
    IsShaped s ↔ 14 ≤ s.length ∧ NoBlank s := by
  constructor
  · intro hs
    exact ⟨hs.length.ge, hs.noBlank⟩
  · rintro ⟨hlen, hb⟩
    rcases h with hfull | hday
    · obtain ⟨hds, hle⟩ := hfull.isDigits_of_noBlank hb
      exact .full hds (Nat.le_antisymm hle hlen)
    · exact hday.isShaped_of_noBlank hb hlen

/-! ## §3 What is read -/

/-- **Dates are read loosely.** A text is read as a date when it is written in one of the forms
    and the date occurs in the years that a timestamp covers. Such a text has the shape that the
    forms describe unless it is too short or has blanks inside. -/
theorem parseDate_isShaped_iff (raw : String) :
    (∀ t, parseDate raw = some t ↔
      ∃ c : Civil, (IsWritten fullForm (Text.trim raw.toList) c ∨
          IsWritten dayFirstForm (Text.trim raw.toList) c) ∧
        c.Occurs ∧ -262143 ≤ c.year ∧ c.year ≤ 262142 ∧ c.Names t) ∧
    ((∃ t, parseDate raw = some t) →
      (IsShaped (Text.trim raw.toList) ↔
        14 ≤ (Text.trim raw.toList).length ∧ NoBlank (Text.trim raw.toList))) := by
  constructor
  · intro t
    exact parseDate_eq_some_iff
  · rintro ⟨t, ht⟩
    -- Only texts written in one of the forms are read.
    obtain ⟨c, hwritten, -⟩ := parseDate_eq_some_iff.1 ht
    exact isShaped_iff hwritten

/-- The last digit of a date is missing, and the date is read all the same, with 3 for its 30
    seconds. -/
theorem thirteen_digits_are_a_date :
    parseDate "1997121710263" = some ⟨882354363, 0⟩ ∧
      ¬ IsShaped (Text.trim "1997121710263".toList) := by
  have hread : parseDate "1997121710263" = some ⟨882354363, 0⟩ := by decide
  refine ⟨hread, fun hshaped => ?_⟩
  have hlong := (((parseDate_isShaped_iff "1997121710263").2 ⟨_, hread⟩).1 hshaped).1
  exact absurd hlong (by decide)

/-- It is not true that all texts that are read as dates have the shape. -/
theorem not_forall_parseDate_isShaped :
    ¬ ∀ (raw : String) (t : Timestamp), parseDate raw = some t →
      IsShaped (Text.trim raw.toList) := by
  intro h
  have hshaped := h "1997121710263" ⟨882354363, 0⟩ (by decide)
  exact absurd hshaped.length (by decide)

end Quicklook.Time
