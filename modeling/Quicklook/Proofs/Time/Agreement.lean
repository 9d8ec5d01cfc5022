import Quicklook.Proofs.Time.FullForm

/-!
# The two forms of a date agree

A date and time can be written in either form, the month of the second one in letters of either
case and its year in two digits. Whichever is chosen, the same instant is read; and no text can be
taken for a date of both forms.

* `isWritten_fullText`, `isWritten_dayFirstText`: a date and time as it is written in each form
* `isWritten_dayFirst_iff`: what is written in places around a `Z`
* `forms_agree`: the laws of both forms together
-/

namespace Quicklook.Time

open Metadata (IsDigits decimal)
open Text (isBlank)

/-! ## §1 Writing a date -/

namespace Civil

/-- A date and time, the year first. -/
def fullText (c : Civil) : List Char :=
  padded 4 c.year.toNat ++ (padded 2 c.month ++ (padded 2 c.day ++ (padded 2 c.hour ++
    (padded 2 c.minute ++ padded 2 c.second))))

/-- A date and time, the day first, with a text for the month. -/
def dayFirstText (c : Civil) (name : List Char) : List Char :=
  padded 2 c.day ++ (padded 2 c.hour ++ (padded 2 c.minute ++ (padded 2 c.second ++
    'Z' :: (name ++ padded 2 (c.year % 100).toNat))))

end Civil

variable {c : Civil}

/-- A number padded with zeros to its width is read as that number. -/
theorem isNumber_padded {width n : ℕ} (hw : 0 < width) (h : n < 10 ^ width) (rest : List Char) :
    IsNumber width (padded width n) n rest := by
  have hnumber := isNumber_of_length (isDigits_padded hw n) (length_padded width n) rest
  rwa [decimal_padded h] at hnumber

/-- The parts of a date and time that occurs have two digits. -/
theorem Civil.Occurs.lt (h : c.Occurs) :
    c.month < 10 ^ 2 ∧ c.day < 10 ^ 2 ∧ c.hour < 10 ^ 2 ∧ c.minute < 10 ^ 2 ∧
      c.second < 10 ^ 2 := by
  obtain ⟨⟨-, hm, -, hd⟩, hh, hi, hs⟩ := h
  -- No month has more than 31 days.
  have hlen : monthDays c.year c.month ≤ 31 := by
    unfold monthDays
    split_ifs <;> decide
  simp only [Civil.date] at hm hd
  omega

/-- Each part fills its field, so that the text is read part by part. -/
theorem isWritten_fullText (h : c.Occurs) (hlow : 0 ≤ c.year) (hhigh : c.year ≤ 9999) :
    IsWritten fullForm c.fullText c := by
  obtain ⟨hm, hd, hh, hi, hs⟩ := h.lt
  have hyear := isYear_of_length (isDigits_padded (by decide : 0 < 4) c.year.toNat)
    (length_padded 4 c.year.toNat)
  rw [decimal_padded (by omega), Int.toNat_of_nonneg hlow] at hyear
  have hnumber {n : ℕ} (hn : n < 10 ^ 2) (rest : List Char) : IsNumber 2 (padded 2 n) n rest :=
    isNumber_padded (by decide) hn rest
  exact .cons ⟨_, hyear _, rfl⟩ <| .cons ⟨_, hnumber hm _, rfl⟩ <| .cons ⟨_, hnumber hd _, rfl⟩ <|
    .cons ⟨_, hnumber hh _, rfl⟩ <| .cons ⟨_, hnumber hi _, rfl⟩ <| .single ⟨_, hnumber hs _, rfl⟩

/-- Two digits give the year back in the hundred years around 2000. -/
theorem fullYear_emod (hlow : 1970 ≤ c.year) (hhigh : c.year ≤ 2069) :
    fullYear (c.year % 100).toNat = c.year := by
  unfold fullYear
  split <;> omega

theorem isWritten_dayFirstText (h : c.Occurs) (hlow : 1970 ≤ c.year) (hhigh : c.year ≤ 2069)
    {name : List Char} (hname : IsMonthName name c.month) :
    IsWritten dayFirstForm (c.dayFirstText name) c := by
  obtain ⟨-, hd, hh, hi, hs⟩ := h.lt
  have hyear := fullYear_emod hlow hhigh
  have hnumber {n : ℕ} (hn : n < 10 ^ 2) (rest : List Char) : IsNumber 2 (padded 2 n) n rest :=
    isNumber_padded (by decide) hn rest
  have hletter {d : Civil} {rest : List Char} :
      DateField.Spells d ['Z'] rest d (.literal 'Z') := ⟨rfl, rfl⟩
  exact .cons ⟨_, hnumber hd _, rfl⟩ <| .cons ⟨_, hnumber hh _, rfl⟩ <|
    .cons ⟨_, hnumber hi _, rfl⟩ <| .cons ⟨_, hnumber hs _, rfl⟩ <|
    .cons hletter <| .cons ⟨_, hname, rfl⟩ <|
    .single ⟨_, hnumber (by omega) _, by rw [hyear]⟩

theorem noBlank_padded (width n : ℕ) : NoBlank (padded width n) :=
  fun d hd => isBlank_of_isDigit (isDigit_of_mem_padded d hd)

theorem noBlank_fullText : NoBlank c.fullText := by
  simp only [Civil.fullText, noBlank_append_iff]
  exact ⟨noBlank_padded _ _, noBlank_padded _ _, noBlank_padded _ _, noBlank_padded _ _,
    noBlank_padded _ _, noBlank_padded _ _⟩

theorem noBlank_dayFirstText {name : List Char} (hname : NoBlank name) :
    NoBlank (c.dayFirstText name) := by
  simp only [Civil.dayFirstText, noBlank_append_iff, noBlank_cons_iff]
  exact ⟨noBlank_padded _ _, noBlank_padded _ _, noBlank_padded _ _, noBlank_padded _ _, by decide,
    hname, noBlank_padded _ _⟩

/-! ## §2 Places around a letter -/

/-- The date and time in the places of eight digits before a month and two digits after it. -/
def dayStamped (ds : List Char) (m : ℕ) (year : List Char) : Civil where
  year := fullYear (decimal year)
  month := m
  day := decimal (ds.take 2)
  hour := decimal ((ds.drop 2).take 2)
  minute := decimal ((ds.drop 4).take 2)
  second := decimal ((ds.drop 6).take 2)

/-- Eight digits before the letter are entered as day, hour, minute and second. -/
theorem readFields_eight_digits {ds : List Char} (hds : IsDigits ds) (hlen : ds.length = 8)
    (rest : List Char) :
    readFields ⟨0, 0, 0, 0, 0, 0⟩ (ds ++ 'Z' :: rest) dayFirstForm =
      readFields ⟨0, 0, decimal (ds.take 2), decimal ((ds.drop 2).take 2),
        decimal ((ds.drop 4).take 2), decimal ((ds.drop 6).take 2)⟩ rest
        [.monthName, .shortYear] := by
  have hslice := fun k (hk : k + 2 ≤ 8) => isDigits_slice hds k (n := 2) (by decide) (hlen ▸ hk)
  have hnumber := fun k (hk : k + 2 ≤ 8) => isNumber_of_length (hslice k hk).1 (hslice k hk).2
  have hend : ds.drop 8 = [] := List.drop_of_length_le hlen.le
  have hfront : Spells [.day, .hour, .minute, .second] ⟨0, 0, 0, 0, 0, 0⟩ (ds.drop 0)
      ('Z' :: rest) ⟨0, 0, decimal (ds.take 2), decimal ((ds.drop 2).take 2),
        decimal ((ds.drop 4).take 2), decimal ((ds.drop 6).take 2)⟩ := by
    -- Four fields of two digits take the eight up.
    refine spells_of_slice 0 2 ⟨_, hnumber 0 (by decide) _, rfl⟩ ?_
    refine spells_of_slice 2 2 ⟨_, hnumber 2 (by decide) _, rfl⟩ ?_
    refine spells_of_slice 4 2 ⟨_, hnumber 4 (by decide) _, rfl⟩ ?_
    refine spells_of_slice 6 2 ⟨_, hnumber 6 (by decide) _, rfl⟩ ?_
    rw [hend]
    exact .nil
  rw [List.drop_zero] at hfront
  exact readFields_append hfront

/-- Eight digits, a `Z`, three characters and two digits are written in the form that begins with
    the day exactly when the three characters are a month abbreviation. -/
theorem isWritten_dayFirst_iff {ds name year : List Char} (hds : IsDigits ds)
    (hlen : ds.length = 8) (hname : name.length = 3) (hyear : IsDigits year)
    (hlen' : year.length = 2) :
    IsWritten dayFirstForm (ds ++ 'Z' :: (name ++ year)) c ↔
      ∃ m, IsMonthName name m ∧ c = dayStamped ds m year := by
  rw [isWritten_iff, readFields_eight_digits hds hlen, readFields_eq_some_iff]
  constructor
  -- A month abbreviation has three letters, so what is read for one are the three characters.
  · rintro ⟨_, _ | ⟨⟨m, hm, rfl⟩, _ | ⟨⟨n, hn, rfl⟩, _ | _⟩⟩, hsplit⟩
    simp only [List.append_nil] at hsplit
    obtain ⟨rfl, rfl⟩ := List.append_inj hsplit (hname.trans hm.length.symm)
    obtain ⟨-, rfl⟩ := hn.takes (noBlank_of_isDigits hyear)
    exact ⟨m, hm, rfl⟩
  · rintro ⟨m, hm, rfl⟩
    exact ⟨name ++ year, .cons ⟨m, hm, rfl⟩ (.single ⟨_, isNumber_of_length hyear hlen' [], rfl⟩),
      (List.append_nil _).symm⟩

/-- Nothing is trimmed of a text that begins and ends with digits. -/
theorem trim_of_isDigits {front back : List Char} (hfront : IsDigits front) (hback : IsDigits back)
    (mid : List Char) : Text.trim (front ++ (mid ++ back)) = front ++ (mid ++ back) := by
  have htrim : Text.trim ([] ++ (front ++ (mid ++ back)) ++ []) = front ++ (mid ++ back) := by
    refine Text.trim_append (by simp) (by simp) (fun c hc => ?_) fun c hc => ?_
    · exact isBlank_of_isDigit (isDigit_of_head?_append hfront _ c hc)
    -- At the back it is the last of the digits there.
    · obtain ⟨hne, hall⟩ := isDigits_iff.1 hback
      rw [← List.append_assoc, List.getLast?_append_of_ne_nil _ hne] at hc
      exact isBlank_of_isDigit (hall c (List.mem_of_getLast? hc))
  rwa [List.nil_append, List.append_nil] at htrim

/-- The year in two digits lies in the hundred years around 2000. -/
theorem fullYear_bounds {year : List Char} (hyear : IsDigits year) (hlen : year.length = 2) :
    1970 ≤ fullYear (decimal year) ∧ fullYear (decimal year) ≤ 2069 := by
  have hlt := decimal_lt (isDigits_iff.1 hyear).2
  rw [hlen] at hlt
  unfold fullYear
  split <;> omega

/-- Eight digits, a `Z`, three characters and two digits are read as what is in their places. -/
theorem parseDate_dayStamped {ds name year : List Char} (hds : IsDigits ds) (hlen : ds.length = 8)
    (hname : name.length = 3) (hyear : IsDigits year) (hlen' : year.length = 2) {t : Timestamp} :
    parseDate (String.ofList (ds ++ 'Z' :: (name ++ year))) = some t ↔
      ∃ m, IsMonthName name m ∧ (dayStamped ds m year).Occurs ∧
        (dayStamped ds m year).Names t := by
  have htrim : Text.trim (String.ofList (ds ++ 'Z' :: (name ++ year))).toList =
      ds ++ 'Z' :: (name ++ year) := by
    rw [String.toList_ofList]
    exact trim_of_isDigits hds hyear ('Z' :: name)
  -- With a letter in it the text can only be of the second form.
  have hfull : ∀ c, ¬ IsWritten fullForm (ds ++ 'Z' :: (name ++ year)) c :=
    fun c hc => hc.not_mem_Z (by simp)
  have hbounds := fullYear_bounds hyear hlen'
  simp only [parseDate_eq_some_iff, htrim, hfull, false_or,
    isWritten_dayFirst_iff hds hlen hname hyear hlen']
  constructor
  · rintro ⟨_, ⟨m, hm, rfl⟩, hoccurs, -, -, hnames⟩
    exact ⟨m, hm, hoccurs, hnames⟩
  · rintro ⟨m, hm, hoccurs, hnames⟩
    have hlow : -262143 ≤ fullYear (decimal year) := by omega
    have hhigh : fullYear (decimal year) ≤ 262142 := by omega
    exact ⟨_, ⟨m, hm, rfl⟩, hoccurs, hlow, hhigh, hnames⟩

/-! ## §3 Agreement -/

/-- A date and time with the year first is read as its instant. -/
theorem parseDate_fullText (h : c.Occurs) (hlow : 0 ≤ c.year) (hhigh : c.year ≤ 9999) :
    parseDate (String.ofList c.fullText) = some c.timestamp := by
  have hwritten : IsWritten fullForm (Text.trim (String.ofList c.fullText).toList) c := by
    rw [String.toList_ofList, trim_of_noBlank noBlank_fullText]
    exact isWritten_fullText h hlow hhigh
  exact (parseDate_of_isWritten (.inl hwritten)).2
    ⟨h, by omega, by omega, (Civil.names_iff h).2 rfl⟩

theorem parseDate_dayFirstText (h : c.Occurs) (hlow : 1970 ≤ c.year) (hhigh : c.year ≤ 2069)
    {name : List Char} (hname : IsMonthName name c.month) :
    parseDate (String.ofList (c.dayFirstText name)) = some c.timestamp := by
  have hwritten :
      IsWritten dayFirstForm (Text.trim (String.ofList (c.dayFirstText name)).toList) c := by
    rw [String.toList_ofList,
      trim_of_noBlank (noBlank_dayFirstText (noBlank_of_isMonthName hname))]
    exact isWritten_dayFirstText h hlow hhigh hname
  exact (parseDate_of_isWritten (.inr hwritten)).2
    ⟨h, by omega, by omega, (Civil.names_iff h).2 rfl⟩

/-- **The two forms of a date agree.** A date and time of the hundred years around 2000 is read
    as its instant in either form, whatever the case of the month's letters. Of the texts of
    eight digits, a `Z`, three characters and two digits, those are read whose characters are a
    month abbreviation and whose places give a date and time that occurs, and as that; and no
    text is a date of both forms. -/
theorem forms_agree :
    (∀ (c : Civil) (name : List Char), c.Occurs → 1970 ≤ c.year → c.year ≤ 2069 →
      IsMonthName name c.month →
      ∃ t, c.Names t ∧ parseDate (String.ofList c.fullText) = some t ∧
        parseDate (String.ofList (c.dayFirstText name)) = some t) ∧
    (∀ ds name year : List Char, IsDigits ds → ds.length = 8 → name.length = 3 →
      IsDigits year → year.length = 2 →
      ((∃ t, parseDate (String.ofList (ds ++ 'Z' :: (name ++ year))) = some t) ↔
        ∃ m, IsMonthName name m ∧ (dayStamped ds m year).Occurs) ∧
      ∀ t, parseDate (String.ofList (ds ++ 'Z' :: (name ++ year))) = some t →
        ∃ m, IsMonthName name m ∧ (dayStamped ds m year).Names t) ∧
    ∀ s : List Char, readForm fullForm s = none ∨ readForm dayFirstForm s = none := by
  refine ⟨?_, ?_, ?_⟩
  · intro c name hoccurs hlow hhigh hname
    exact ⟨c.timestamp, (Civil.names_iff hoccurs).2 rfl,
      parseDate_fullText hoccurs (by omega) (by omega),
      parseDate_dayFirstText hoccurs hlow hhigh hname⟩
  · intro ds name year hds hlen hname hyear hlen'
    have hread := fun t => parseDate_dayStamped (t := t) hds hlen hname hyear hlen'
    refine ⟨⟨?_, ?_⟩, ?_⟩
    · rintro ⟨t, ht⟩
      obtain ⟨m, hm, hoccurs, -⟩ := (hread t).1 ht
      exact ⟨m, hm, hoccurs⟩
    · rintro ⟨m, hm, hoccurs⟩
      exact ⟨_, (hread _).2 ⟨m, hm, hoccurs, (Civil.names_iff hoccurs).2 rfl⟩⟩
    · intro t ht
      obtain ⟨m, hm, -, hnames⟩ := (hread t).1 ht
      exact ⟨m, hm, hnames⟩
  · intro s
    -- Two dates would be written in both forms.
    cases hfull : readForm fullForm s with
    | none => exact .inl rfl
    | some c =>
      cases hday : readForm dayFirstForm s with
      | none => exact .inr rfl
      | some d =>
        exact absurd ⟨(readForm_eq_some_iff.1 hfull).2, (readForm_eq_some_iff.1 hday).2⟩
          not_isWritten_both

/-- The leap day of 2000 is read in both forms as one instant; its neighbour in 1999 is none. -/
theorem leap_day_in_both_forms :
    (∃ t, parseDate "20000229235960" = some t ∧ parseDate "29235960ZfEb00" = some t) ∧
      ¬ ∃ t, parseDate "29235960ZfEb99" = some t := by
  obtain ⟨hboth, hshape, -⟩ := forms_agree
  obtain ⟨t, -, hfull, hday⟩ := hboth ⟨2000, 2, 29, 23, 59, 60⟩ "fEb".toList (by decide)
    (by decide) (by decide) (by decide)
  have hneighbour := hshape "29235960".toList "fEb".toList "99".toList (by decide) (by decide)
    (by decide) (by decide) (by decide)
  have hnone : ∀ m ≤ 12, IsMonthName "fEb".toList m →
      ¬ (dayStamped "29235960".toList m "99".toList).Occurs := by decide
  refine ⟨⟨t, hfull, hday⟩, fun hsome => ?_⟩
  obtain ⟨m, hm, hoccurs⟩ := hneighbour.1.1 hsome
  exact hnone m hm.le hm hoccurs

end Quicklook.Time
