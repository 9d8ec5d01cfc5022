import Mathlib.Data.String.Basic
import Quicklook.Proofs.Time.Shape

/-!
# Dates of fourteen digits

A text of fourteen digits gives year, month, day, hour, minute and second in fixed places. It is
read as the date and time that stands there, if there is one, and the order of such texts is that
of the instants that they give.

* `isWritten_stamped`: fourteen digits are written in the form that begins with the year
* `parseDate_stamped`: which texts of digits and hyphens are read, and as what
* `lt_iff_before`: texts of fourteen digits are ordered as their instants
-/

namespace Quicklook.Time

open Metadata (IsDigits decimal)
open Text (isBlank)

/-! ## §1 Places -/

/-- The date and time in the places of fourteen digits. -/
def stamped (s : List Char) : Civil where
  year := decimal (s.take 4)
  month := decimal ((s.drop 4).take 2)
  day := decimal ((s.drop 6).take 2)
  hour := decimal ((s.drop 8).take 2)
  minute := decimal ((s.drop 10).take 2)
  second := decimal ((s.drop 12).take 2)

/-- Places within a text of digits hold digits, and as many as there are places. -/
theorem isDigits_slice {s : List Char} (hs : IsDigits s) (k : ℕ) {n : ℕ} (hn : 0 < n)
    (hlen : k + n ≤ s.length) :
    IsDigits ((s.drop k).take n) ∧ ((s.drop k).take n).length = n := by
  have hlength : ((s.drop k).take n).length = n := by
    rw [List.length_take, List.length_drop]
    omega
  refine ⟨isDigits_iff.2 ⟨?_, fun d hd => ?_⟩, hlength⟩
  · exact List.ne_nil_of_length_pos (hlength.symm ▸ hn)
  · exact (isDigits_iff.1 hs).2 d (List.mem_of_mem_drop (List.mem_of_mem_take hd))

/-- A number that fills its places is read as it stands, whatever follows. -/
theorem takes_of_length {width : ℕ} {ds : List Char} (hd : IsDigits ds)
    (hlen : ds.length = width) (rest : List Char) : Takes width ds rest :=
  ⟨hd, hlen.le, fun hlt => absurd hlen hlt.ne⟩

theorem isNumber_of_length {width : ℕ} {ds : List Char} (hd : IsDigits ds)
    (hlen : ds.length = width) (rest : List Char) : IsNumber width ds (decimal ds) rest :=
  IsNumber.mk (List.forall_mem_nil _) (takes_of_length hd hlen rest)

theorem isYear_of_length {ds : List Char} (hd : IsDigits ds) (hlen : ds.length = 4)
    (rest : List Char) : IsYear ds (decimal ds) rest :=
  IsYear.unsigned (List.forall_mem_nil _) (takes_of_length hd hlen rest)

/-- Some places of a text spell a field, and the places after them the others. -/
theorem spells_of_slice {f : DateField} {fs : List DateField} {c c' c'' : Civil}
    {s rest : List Char} (k n : ℕ)
    (hf : f.Spells c ((s.drop k).take n) (s.drop (k + n) ++ rest) c')
    (hfs : Spells fs c' (s.drop (k + n)) rest c'') : Spells (f :: fs) c (s.drop k) rest c'' := by
  have h := Spells.cons hf hfs
  rwa [← List.drop_drop, List.take_append_drop] at h

/-- Fourteen digits spell the date and time in their places. -/
theorem isWritten_stamped {s : List Char} (hs : IsDigits s) (hlen : s.length = 14) :
    IsWritten fullForm s (stamped s) := by
  have hslice := fun k (hk : k + 2 ≤ 14) => isDigits_slice hs k (n := 2) (by decide) (hlen ▸ hk)
  obtain ⟨hyear, hyear'⟩ := isDigits_slice hs 0 (n := 4) (by decide) (hlen ▸ by decide)
  have hnumber := fun k (hk : k + 2 ≤ 14) => isNumber_of_length (hslice k hk).1 (hslice k hk).2
  have hend : s.drop 14 = [] := List.drop_of_length_le hlen.le
  have hall : Spells fullForm ⟨0, 0, 0, 0, 0, 0⟩ (s.drop 0) [] (stamped s) := by
    refine spells_of_slice 0 4 ⟨_, isYear_of_length hyear hyear' _, rfl⟩ ?_
    refine spells_of_slice 4 2 ⟨_, hnumber 4 (by decide) _, rfl⟩ ?_
    refine spells_of_slice 6 2 ⟨_, hnumber 6 (by decide) _, rfl⟩ ?_
    refine spells_of_slice 8 2 ⟨_, hnumber 8 (by decide) _, rfl⟩ ?_
    refine spells_of_slice 10 2 ⟨_, hnumber 10 (by decide) _, rfl⟩ ?_
    refine spells_of_slice 12 2 ⟨_, hnumber 12 (by decide) _, rfl⟩ ?_
    -- The places end where the text ends.
    rw [hend]
    exact .nil
  rwa [List.drop_zero] at hall

/-- The year in four digits is one of those that a timestamp covers. -/
theorem year_stamped_bounds {s : List Char} (hs : IsDigits s) (hlen : s.length = 14) :
    -262143 ≤ (stamped s).year ∧ (stamped s).year ≤ 262142 := by
  obtain ⟨hyear, hyear'⟩ := isDigits_slice hs 0 (n := 4) (by decide) (hlen ▸ by decide)
  have hlt := decimal_lt (isDigits_iff.1 hyear).2
  rw [hyear'] at hlt
  change -262143 ≤ (decimal (s.take 4) : ℤ) ∧ (decimal (s.take 4) : ℤ) ≤ 262142
  rw [List.drop_zero] at hlt
  omega

theorem parseDate_of_isDigits {raw : String} (hs : IsDigits (Text.trim raw.toList))
    (hlen : (Text.trim raw.toList).length = 14) {t : Timestamp} :
    parseDate raw = some t ↔ (stamped (Text.trim raw.toList)).Occurs ∧
      (stamped (Text.trim raw.toList)).Names t := by
  obtain ⟨hlow, hhigh⟩ := year_stamped_bounds hs hlen
  rw [parseDate_of_isWritten (.inl (isWritten_stamped hs hlen))]
  exact ⟨fun h => ⟨h.1, h.2.2.2⟩, fun h => ⟨h.1, hlow, hhigh, h.2⟩⟩

/-! ## §2 Digits and hyphens -/

/-- Nothing but digits is read of texts of digits and hyphens. -/
theorem isDigits_of_parseDate {raw : String} {t : Timestamp}
    (hchars : ∀ ch ∈ Text.trim raw.toList, ch.isDigit = true ∨ ch = '-')
    (h : parseDate raw = some t) : IsDigits (Text.trim raw.toList) := by
  obtain ⟨c, hwritten, -⟩ := parseDate_eq_some_iff.1 h
  rcases hwritten with hfull | hday
  -- A hyphen could only be the sign of a year, which needs a blank before the month.
  · refine (hfull.isDigits_of_noBlank fun ch hch => ?_).1
    rcases hchars ch hch with hdigit | rfl
    · exact isBlank_of_isDigit hdigit
    · decide
  -- The other form has a letter in it.
  · exact absurd (hchars 'Z' hday.mem_Z) (by decide)

/-- **Dates of fourteen digits.** Blanks around it left out, a text of fourteen digits and
    hyphens is read as a date if it has no hyphen and the date and time in its places occurs, and
    then as the instant of that. -/
theorem parseDate_stamped {front core back : List Char}
    (hfront : ∀ b ∈ front, isBlank b = true) (hback : ∀ b ∈ back, isBlank b = true)
    (hlen : core.length = 14) (hcore : ∀ ch ∈ core, ch.isDigit = true ∨ ch = '-') :
    ((∃ t, parseDate (String.ofList (front ++ core ++ back)) = some t) ↔
      IsDigits core ∧ (stamped core).Occurs) ∧
    (∀ t, parseDate (String.ofList (front ++ core ++ back)) = some t → (stamped core).Names t) ∧
    ('-' ∈ core → parseDate (String.ofList (front ++ core ++ back)) = none) := by
  have hnoblank : NoBlank core := by
    intro ch hch
    rcases hcore ch hch with hdigit | rfl
    · exact isBlank_of_isDigit hdigit
    · decide
  have htrim : Text.trim (String.ofList (front ++ core ++ back)).toList = core := by
    rw [String.toList_ofList]
    exact trim_append_of_noBlank hfront hback hnoblank
  -- What is read at all is digits, and then the places decide.
  have hdigits := fun t => isDigits_of_parseDate (t := t) (htrim.symm ▸ hcore)
  rw [htrim] at hdigits
  have hread := fun t (hd : IsDigits core) =>
    parseDate_of_isDigits (t := t) (htrim.symm ▸ hd) (htrim.symm ▸ hlen)
  rw [htrim] at hread
  refine ⟨⟨?_, ?_⟩, ?_, ?_⟩
  · rintro ⟨t, ht⟩
    exact ⟨hdigits t ht, ((hread t (hdigits t ht)).1 ht).1⟩
  · rintro ⟨hd, hoccurs⟩
    exact ⟨_, (hread _ hd).2 ⟨hoccurs, (Civil.names_iff hoccurs).2 rfl⟩⟩
  · intro t ht
    exact ((hread t (hdigits t ht)).1 ht).2
  · intro hhyphen
    rw [Option.eq_none_iff_forall_ne_some]
    intro t ht
    exact absurd ((isDigits_iff.1 (hdigits t ht)).2 '-' hhyphen) (by decide)

/-- A leap second at the end of 1969 is read, with blanks around it, as the last second before
    1970 and a thousand million nanoseconds; with a hyphen for its first digit nothing is. -/
theorem leap_second_before_1970 :
    (parseDate (String.ofList ([' '] ++ "19691231235960".toList ++ ['\n', '\u3000'])) =
        some ⟨-1, 10 ^ 9⟩ ∧
      (stamped "19691231235960".toList).Occurs ∧
      (stamped "19691231235960".toList).Names ⟨-1, 10 ^ 9⟩) ∧
    parseDate (String.ofList ([' '] ++ "-9691231235960".toList ++ [])) = none := by
  have hdigits : IsDigits "19691231235960".toList := by decide
  have hdigits' : IsDigits "9691231235960".toList := by decide
  have hdate := @parseDate_stamped [' '] "19691231235960".toList ['\n', '\u3000']
    (List.all_eq_true.1 rfl) (List.all_eq_true.1 rfl) rfl
    fun ch hch => .inl ((isDigits_iff.1 hdigits).2 ch hch)
  have hhyphen := @parseDate_stamped [' '] "-9691231235960".toList []
    (List.all_eq_true.1 rfl) (List.forall_mem_nil _) rfl
    (List.forall_mem_cons.2 ⟨.inr rfl, fun ch hch => .inl ((isDigits_iff.1 hdigits').2 ch hch)⟩)
  have hread : parseDate (String.ofList ([' '] ++ "19691231235960".toList ++ ['\n', '\u3000'])) =
      some ⟨-1, 10 ^ 9⟩ := by decide
  exact ⟨⟨hread, (hdate.1.1 ⟨_, hread⟩).2, hdate.2.1 _ hread⟩, hhyphen.2.2 (by decide)⟩

/-! ## §3 Order -/

theorem Civil.earlier_iff {c d : Civil} :
    c.Earlier d ↔ c.year < d.year ∨ (c.year = d.year ∧ (c.month < d.month ∨
      (c.month = d.month ∧ (c.day < d.day ∨ (c.day = d.day ∧ (c.hour < d.hour ∨
        (c.hour = d.hour ∧ (c.minute < d.minute ∨
          (c.minute = d.minute ∧ c.second < d.second))))))))) := by
  simp only [Earlier, Date.Earlier, date, Date.mk.injEq]
  tauto

/-- Texts of digits are ordered as the numbers in their first places, and as what follows where
    these agree. -/
theorem drop_lt_drop_iff {s t : List Char} (hs : IsDigits s) (ht : IsDigits t)
    (hlen : s.length = t.length) (k n : ℕ) :
    s.drop k < t.drop k ↔
      decimal ((s.drop k).take n) < decimal ((t.drop k).take n) ∨
        (decimal ((s.drop k).take n) = decimal ((t.drop k).take n) ∧
          s.drop (k + n) < t.drop (k + n)) := by
  have hslice : ((s.drop k).take n).length = ((t.drop k).take n).length := by
    simp only [List.length_take, List.length_drop, hlen]
  have hs' : ∀ d ∈ (s.drop k).take n, d.isDigit = true := fun d hd =>
    (isDigits_iff.1 hs).2 d (List.mem_of_mem_drop (List.mem_of_mem_take hd))
  have ht' : ∀ d ∈ (t.drop k).take n, d.isDigit = true := fun d hd =>
    (isDigits_iff.1 ht).2 d (List.mem_of_mem_drop (List.mem_of_mem_take hd))
  rw [lt_iff_take_drop n (by simp only [List.length_drop, hlen]),
    lt_iff_decimal_lt hs' ht' hslice, eq_iff_decimal_eq hs' ht' hslice, List.drop_drop,
    List.drop_drop]

/-- Fourteen digits are ordered as the dates and times in their places. -/
theorem lt_iff_stamped_earlier {s t : List Char} (hs : IsDigits s) (ht : IsDigits t)
    (hslen : s.length = 14) (htlen : t.length = 14) :
    s < t ↔ (stamped s).Earlier (stamped t) := by
  have hstep := drop_lt_drop_iff hs ht (hslen.trans htlen.symm)
  have hend : ¬ s.drop 14 < t.drop 14 := by
    rw [List.drop_of_length_le hslen.le, List.drop_of_length_le htlen.le]
    exact List.not_lt_nil []
  -- The places of the fields decide one after another.
  have hall := hstep 0 4
  rw [hstep 4 2, hstep 6 2, hstep 8 2, hstep 10 2, hstep 12 2] at hall
  simp only [List.drop_zero, Nat.reduceAdd, hend, and_false, or_false] at hall
  rw [hall, Civil.earlier_iff]
  simp only [stamped, Nat.cast_lt, Nat.cast_inj]

theorem eq_iff_stamped_eq {s t : List Char} (hs : IsDigits s) (ht : IsDigits t)
    (hslen : s.length = 14) (htlen : t.length = 14) : s = t ↔ stamped s = stamped t := by
  refine ⟨congrArg stamped, fun heq => ?_⟩
  have hirrefl : ¬ (stamped t).Earlier (stamped t) := by
    simp [Civil.earlier_iff]
  -- Of two different texts one comes first, and then so does its date and time.
  rcases lt_trichotomy s t with h | h | h
  · have hearlier := (lt_iff_stamped_earlier hs ht hslen htlen).1 h
    exact absurd (heq ▸ hearlier) hirrefl
  · exact h
  · have hearlier := (lt_iff_stamped_earlier ht hs htlen hslen).1 h
    exact absurd (heq ▸ hearlier) hirrefl

/-- The instant of fourteen digits is that of the date and time in their places. -/
theorem eq_timestamp_of_parseDate {raw : String} (hs : IsDigits raw.toList)
    (hlen : raw.toList.length = 14) {t : Timestamp} (h : parseDate raw = some t) :
    (stamped raw.toList).Occurs ∧ t = (stamped raw.toList).timestamp := by
  have htrim : Text.trim raw.toList = raw.toList := trim_of_noBlank (noBlank_of_isDigits hs)
  rw [parseDate_of_isDigits (htrim.symm ▸ hs) (htrim.symm ▸ hlen), htrim] at h
  exact ⟨h.1, (Civil.names_iff h.1).1 h.2⟩

/-- **Dates of fourteen digits are ordered as they are written.** Of two texts of fourteen digits
    that are read as dates, one comes before the other exactly when its instant is earlier, and
    different texts give different instants. -/
theorem lt_iff_before {a b : String} {s t : Timestamp} (ha : IsDigits a.toList)
    (hb : IsDigits b.toList) (halen : a.length = 14) (hblen : b.length = 14)
    (hs : parseDate a = some s) (ht : parseDate b = some t) :
    (a < b ↔ s.Before t) ∧ (a = b ↔ s = t) := by
  rw [← String.length_toList] at halen hblen
  obtain ⟨haocc, rfl⟩ := eq_timestamp_of_parseDate ha halen hs
  obtain ⟨hbocc, rfl⟩ := eq_timestamp_of_parseDate hb hblen ht
  constructor
  · rw [String.lt_iff_toList_lt, lt_iff_stamped_earlier ha hb halen hblen,
      Civil.before_iff_earlier haocc hbocc]
  · rw [← String.toList_inj, eq_iff_stamped_eq ha hb halen hblen,
      Civil.timestamp_eq_iff haocc hbocc]

/-- A leap second comes after the second that it shares its seconds with. -/
theorem leap_second_after_last_second :
    parseDate "20161231235959" = some ⟨1483228799, 0⟩ ∧
      parseDate "20161231235960" = some ⟨1483228799, 1000000000⟩ ∧
      Timestamp.Before ⟨1483228799, 0⟩ ⟨1483228799, 1000000000⟩ := by
  have hlast : parseDate "20161231235959" = some ⟨1483228799, 0⟩ := by decide
  have hleap : parseDate "20161231235960" = some ⟨1483228799, 1000000000⟩ := by decide
  have hiff := lt_iff_before (by decide) (by decide) rfl rfl hlast hleap
  exact ⟨hlast, hleap, hiff.1.1 (by decide)⟩

end Quicklook.Time
