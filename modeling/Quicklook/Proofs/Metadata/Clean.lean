import Mathlib.Data.Nat.Digits.Defs
import Quicklook.Proofs.Metadata.Isolation
import Quicklook.Proofs.Text.Trimming

/-!
# Extracted values are clean

What a table extracts can be relied on: a value is of the kind under which its attribute is
declared, a text is never blank and has no blanks around it, a number is the one that the whole
text writes, and a country is the only one that its code stands for.

Texts are clean because fields are trimmed before they are read. A country is no part of the field,
so for it the table of codes has to be clean, and that comes from how its lines are read.

* `integerOf_eq_some_iff`: which texts write a number
* `CountryTable.isClean_ofText`: every table of codes that was read from a text
* `extract_clean`: what all values and failures of an extraction are like
-/

namespace Quicklook

/-! ## §1 Clean texts -/

namespace Text

/-- A text that is not empty, with no blanks around it. -/
structure IsClean (s : String) : Prop where
  ne_empty : s ≠ ""
  head : ∀ c, s.toList.head? = some c → isBlank c = false
  last : ∀ c, s.toList.getLast? = some c → isBlank c = false

/-- What trimming leaves is clean, unless it leaves nothing. -/
theorem isClean_ofList_trim {s : List Char} (h : trim s ≠ []) :
    IsClean (String.ofList (trim s)) where
  ne_empty := by simpa using h
  head c hc := head?_trim (by simpa using hc)
  last c hc := getLast?_trim (by simpa using hc)

theorem isClean_trimmed {s : String} (h : trimmed s ≠ "") : IsClean (trimmed s) :=
  isClean_ofList_trim fun hnil => h (by rw [trimmed, hnil])

/-- A text that is not empty is clean exactly if trimming leaves it alone. -/
theorem isClean_iff {s : String} : IsClean s ↔ s ≠ "" ∧ trimmed s = s := by
  constructor
  · intro h
    have htrim : trim s.toList = s.toList := by
      simpa using @trim_append [] s.toList [] (by simp) (by simp) h.head h.last
    exact ⟨h.ne_empty, by rw [trimmed, htrim, String.ofList_toList]⟩
  · rintro ⟨hne, htrim⟩
    rw [← htrim] at hne ⊢
    exact isClean_trimmed hne

instance (s : String) : Decidable (IsClean s) :=
  decidable_of_iff _ isClean_iff.symm

end Text

/-! ## §2 Whole numbers -/

namespace Metadata

/-- One or more ASCII digits. -/
def IsDigits (ds : List Char) : Prop :=
  ds ≠ [] ∧ ∀ d ∈ ds, '0' ≤ d ∧ d ≤ '9'

/-- The number that digits write, the units last. -/
def decimal (ds : List Char) : ℕ :=
  Nat.ofDigits 10 (ds.reverse.map fun d => d.toNat - '0'.toNat)

/-- A text writes a whole number: it is digits throughout, but for one sign that may come first. -/
inductive Writes : List Char → ℤ → Prop
  | unsigned {ds : List Char} (h : IsDigits ds) : Writes ds (decimal ds)
  | plus {ds : List Char} (h : IsDigits ds) : Writes ('+' :: ds) (decimal ds)
  | minus {ds : List Char} (h : IsDigits ds) : Writes ('-' :: ds) (-decimal ds)

/-- A text writes a whole number of 64 bits. -/
def WritesWord (s : String) (n : ℤ) : Prop :=
  Writes s.toList n ∧ -2 ^ 63 ≤ n ∧ n < 2 ^ 63

/-- Digits are read as the number that they write. -/
theorem digitsValue_eq_decimal (ds : List Char) : Time.digitsValue ds = decimal ds := by
  rw [decimal, Nat.ofDigits_eq_foldr, List.foldr_map, List.foldr_reverse, Time.digitsValue]
  congr 1
  funext n d
  simp [Nat.add_comm]

theorem isDigit_iff (c : Char) : c.isDigit = true ↔ '0' ≤ c ∧ c ≤ '9' := by
  simp only [Char.isDigit, Bool.and_eq_true, decide_eq_true_eq, Char.le_def]

/-- A number is read of digits only, and it is the one that they write. -/
theorem natOfDigits_eq_some_iff {s : List Char} {n : ℕ} :
    natOfDigits s = some n ↔ IsDigits s ∧ decimal s = n := by
  have hdigits : (s ≠ [] ∧ s.all Char.isDigit = true) ↔ IsDigits s := by
    simp only [IsDigits, List.all_eq_true, isDigit_iff]
  rw [natOfDigits, digitsValue_eq_decimal, Option.ite_none_right_eq_some, hdigits,
    Option.some.injEq]

theorem map_natOfDigits_eq_some_iff {s : List Char} {f : ℕ → ℤ} {n : ℤ} :
    (natOfDigits s).map f = some n ↔ IsDigits s ∧ n = f (decimal s) := by
  rw [Option.map_eq_some_iff]
  simp only [natOfDigits_eq_some_iff]
  constructor
  · rintro ⟨m, ⟨h, rfl⟩, rfl⟩
    exact ⟨h, rfl⟩
  · rintro ⟨h, rfl⟩
    exact ⟨_, ⟨h, rfl⟩, rfl⟩

/-- A text with a minus sign in front writes the negative of its digits. -/
theorem writes_minus_iff {ds : List Char} {n : ℤ} :
    Writes ('-' :: ds) n ↔ IsDigits ds ∧ n = -decimal ds := by
  constructor
  · intro h
    cases h with
    -- A sign is no digit.
    | unsigned h => exact absurd (h.2 '-' (List.mem_cons_self ..)) (by decide)
    | minus h => exact ⟨h, rfl⟩
  · rintro ⟨h, rfl⟩
    exact .minus h

theorem writes_plus_iff {ds : List Char} {n : ℤ} :
    Writes ('+' :: ds) n ↔ IsDigits ds ∧ n = decimal ds := by
  constructor
  · intro h
    cases h with
    | unsigned h => exact absurd (h.2 '+' (List.mem_cons_self ..)) (by decide)
    | plus h => exact ⟨h, rfl⟩
  · rintro ⟨h, rfl⟩
    exact .plus h

/-- Without a sign a text has to be digits throughout. -/
theorem writes_iff_of_unsigned {s : List Char} (hminus : ∀ ds, s ≠ '-' :: ds)
    (hplus : ∀ ds, s ≠ '+' :: ds) {n : ℤ} : Writes s n ↔ IsDigits s ∧ n = decimal s := by
  constructor
  · intro h
    cases h with
    | unsigned h => exact ⟨h, rfl⟩
    | plus h => exact absurd rfl (hplus _)
    | minus h => exact absurd rfl (hminus _)
  · rintro ⟨h, rfl⟩
    exact .unsigned h

/-- Which texts are read as a number, and as which. -/
theorem integerOf_eq_some_iff {s : List Char} {n : ℤ} :
    integerOf s = some n ↔ Writes s n ∧ -2 ^ 63 ≤ n ∧ n < 2 ^ 63 := by
  have hmin : Int64.minValue.toInt = -2 ^ 63 := rfl
  have hmax : Int64.maxValue.toInt = 2 ^ 63 - 1 := rfl
  have hrange : (decide (Int64.minValue.toInt ≤ n) && decide (n ≤ Int64.maxValue.toInt)) = true ↔
      -2 ^ 63 ≤ n ∧ n < 2 ^ 63 := by
    rw [Bool.and_eq_true, decide_eq_true_iff, decide_eq_true_iff, hmin, hmax, Int.le_sub_one_iff]
  simp only [integerOf, Option.filter_eq_some_iff, hrange]
  -- The range is asked for in the end, whatever the sign.
  refine and_congr_left fun _ => ?_
  -- The cases are those of the sign.
  split
  · rename_i ds
    have hneg := map_natOfDigits_eq_some_iff (s := ds) (f := fun m => -(m : ℤ)) (n := n)
    rw [writes_minus_iff, ← hneg]
    cases natOfDigits ds <;> rfl
  · rw [map_natOfDigits_eq_some_iff, writes_plus_iff]
    rfl
  · rename_i hminus hplus
    rw [map_natOfDigits_eq_some_iff, writes_iff_of_unsigned hminus hplus]
    rfl

end Metadata

/-! ## §3 Codes of countries -/

namespace CountryTable

/-- All codes of a table are clean. -/
def IsClean (t : CountryTable) : Prop :=
  ∀ key, ∀ code ∈ t.resolve key, Text.IsClean code

theorem isClean_empty : empty.IsClean := by
  intro key code hcode
  simp [resolve, empty] at hcode

/-- A table stays clean if clean codes are entered. -/
theorem IsClean.insert {t : CountryTable} (h : t.IsClean) (key : String) {codes : List String}
    (hcodes : ∀ code ∈ codes, Text.IsClean code) : (t.insert key codes).IsClean := by
  intro other code hcode
  rw [resolve_insert] at hcode
  split at hcode
  · exact hcodes code hcode
  · exact h other code hcode

/-- The codes of a line are trimmed, and blank ones are left out. -/
theorem isClean_of_mem_readCodes {s : List Char} {code : String}
    (h : code ∈ (readCodes s).map String.ofList) : Text.IsClean code := by
  obtain ⟨piece, hpiece, rfl⟩ := List.mem_map.1 h
  obtain ⟨htrim, hne⟩ := List.mem_filter.1 hpiece
  obtain ⟨raw, -, rfl⟩ := List.mem_map.1 htrim
  exact Text.isClean_ofList_trim (by simpa using hne)

/-- The codes of an entry are read off a part of its line. -/
theorem eq_readCodes_of_readLine {line key : List Char} {codes : List (List Char)}
    (h : readLine line = .entry key codes) : ∃ s, codes = readCodes s := by
  simp only [readLine] at h
  split at h
  -- Blank lines and comments of either kind are no entries.
  · cases h
  · cases h
  · cases h
  · split at h
    · cases h
    · obtain ⟨-, rfl⟩ := Line.entry.inj h
      exact ⟨_, rfl⟩

theorem IsClean.enter {t : CountryTable} (h : t.IsClean) (number : ℕ) (line : List Char) :
    (t.enter number (readLine line)).value.IsClean := by
  cases hline : readLine line with
  | blank => exact h
  | unreadable line => exact h
  | entry key codes =>
    obtain ⟨s, rfl⟩ := eq_readCodes_of_readLine hline
    exact h.insert _ fun code => isClean_of_mem_readCodes

theorem IsClean.enterLines {t : CountryTable} (h : t.IsClean) (number : ℕ)
    (lines : List (List Char)) : (t.enterLines number lines).value.IsClean := by
  induction lines generalizing t number with
  | nil => exact h
  | cons line lines ih => exact ih (h.enter number line) (number + 1)

/-- Every table of codes that was read from a text is clean. -/
theorem isClean_ofText (text : String) : (ofText text).value.IsClean :=
  isClean_empty.enterLines 1 _

end CountryTable

/-! ## §4 One row -/

/-- The kind of a value; extraction gives no files. -/
def Value.kind? : Value → Option Metadata.ValueKind
  | .text _ => some .text
  | .integer _ => some .integer
  | .date _ => some .date
  | .binary _ => none

namespace Metadata

/-- The kind of the values of a reading. -/
def Reading.kind : Reading → ValueKind
  | .text | .classification | .country => .text
  | .integer => .integer
  | .date => .date

/-- Of all readings only one gives numbers. -/
theorem Reading.kind_eq_integer_iff {reading : Reading} :
    reading.kind = .integer ↔ reading = .integer := by
  cases reading <;> simp [kind]

/-- Every row reads its field as values of the kind that it declares. -/
theorem kind_reading_eq {table : Table} (h : table ∈ tables) {row : Row} (hr : row ∈ table) :
    row.reading.kind = row.kind := by
  have hall : ∀ table ∈ tables, ∀ row ∈ table, row.reading.kind = row.kind := by
    decide +kernel
  exact hall table h row hr

/-- The names of the security classifications. -/
def classificationNames : List String :=
  ["TOP_SECRET", "SECRET", "CONFIDENTIAL", "RESTRICTED", "UNCLASSIFIED"]

/-- Spelling out gives one of the names, or leaves the letter. -/
theorem spellOut_eq_or_mem (s : String) : spellOut s = s ∨ spellOut s ∈ classificationNames := by
  unfold spellOut classificationNames
  split_ifs <;> simp

theorem isClean_of_mem_classificationNames {name : String} (h : name ∈ classificationNames) :
    Text.IsClean name := by
  have hall : ∀ name ∈ classificationNames, Text.trimmed name = name ∧ name ≠ "" := by
    decide +kernel
  obtain ⟨htrim, hne⟩ := hall name h
  rw [← htrim] at hne ⊢
  exact Text.isClean_trimmed hne

/-- A clean letter is spelled out as a clean name. -/
theorem isClean_spellOut {s : String} (h : Text.IsClean s) : Text.IsClean (spellOut s) := by
  -- Either nothing was changed, or the text is one of five.
  rcases spellOut_eq_or_mem s with hs | hs
  · exact hs.symm ▸ h
  · exact isClean_of_mem_classificationNames hs

/-- What a text gives when it is read in some way. -/
inductive Reads (resolve : CountryResolver) (raw : String) : Reading → Value → Prop
  | text : Reads resolve raw .text (.text raw)
  | classification : Reads resolve raw .classification (.text (spellOut raw))
  | integer {n : ℤ} (h : integerOf raw.toList = some n) : Reads resolve raw .integer (.integer n)
  | date {d : Time.Timestamp} (h : Time.parseDate raw = some d) : Reads resolve raw .date (.date d)
  | country {code : String} (h : resolve.single raw = .ok (some code)) :
      Reads resolve raw .country (.text code)

namespace Row

variable {row : Row} {resolve : CountryResolver} {raw t : String} {v : Value} {e : ExtractError}

/-- Each way of reading gives its own kind of value. -/
theorem reads_of_read (h : row.read resolve raw = .ok (some v)) :
    Reads resolve raw row.reading v := by
  cases hr : row.reading with
  | text =>
    obtain rfl : .text raw = v := by simpa [read, hr] using h
    exact .text
  | classification =>
    obtain rfl : .text (spellOut raw) = v := by simpa [read, hr] using h
    exact .classification
  | integer =>
    cases hn : integerOf raw.toList with
    | none => simp [read, hr, hn] at h
    | some n =>
      obtain rfl : .integer n = v := by simpa [read, hr, hn] using h
      exact .integer hn
  | date =>
    obtain ⟨d, hd, rfl⟩ : ∃ d, Time.parseDate raw = some d ∧ .date d = v := by
      simpa [read, hr] using h
    exact .date hd
  | country =>
    cases hs : resolve.single raw with
    | error e => simp [read, hr, hs] at h
    | ok code =>
      obtain ⟨c, rfl, rfl⟩ : ∃ c, code = some c ∧ .text c = v := by
        simpa [read, hr, hs] using h
      exact .country hs

/-- A value that a row gives is what the trimmed text of its field reads as. -/
theorem reads_of_apply {text : Option String} (h : row.apply resolve text = .ok (some v)) :
    ∃ t ∈ text, Text.trimmed t ≠ "" ∧ Reads resolve (Text.trimmed t) row.reading v := by
  cases text with
  | none => cases h
  | some t =>
    rw [apply_some] at h
    split at h
    · cases h
    · rename_i hblank
      exact ⟨t, rfl, hblank, reads_of_read h⟩

/-- A number is read of the whole trimmed text, or the row fails with this text. -/
theorem apply_integer (hr : row.reading = .integer) (ht : Text.trimmed t ≠ "") :
    row.apply resolve (some t) =
      match integerOf (Text.trimmed t).toList with
      | some n => .ok (some (.integer n))
      | none => .error (.invalidInteger row.field (Text.trimmed t)) := by
  rw [apply_some, if_neg ht]
  cases hn : integerOf (Text.trimmed t).toList <;> simp only [read, hr, hn]

theorem apply_integer_eq_some_iff (hr : row.reading = .integer) (ht : Text.trimmed t ≠ "") :
    row.apply resolve (some t) = .ok (some v) ↔
      ∃ n, v = .integer n ∧ WritesWord (Text.trimmed t) n := by
  simp only [apply_integer hr ht, WritesWord, ← integerOf_eq_some_iff]
  cases integerOf (Text.trimmed t).toList <;> simp [eq_comm]

/-- A row of integers fails where no number of 64 bits is written. -/
theorem apply_integer_eq_error_iff (hr : row.reading = .integer) (ht : Text.trimmed t ≠ "") :
    row.apply resolve (some t) = .error e ↔
      (¬ ∃ n, WritesWord (Text.trimmed t) n) ∧
        e = .invalidInteger row.field (Text.trimmed t) := by
  simp only [apply_integer hr ht, WritesWord, ← integerOf_eq_some_iff]
  cases integerOf (Text.trimmed t).toList <;> simp [eq_comm]

theorem apply_country (hr : row.reading = .country) (ht : Text.trimmed t ≠ "") :
    row.apply resolve (some t) =
      match resolve (Text.trimmed t) with
      | [] => .ok none
      | [code] => .ok (some (.text code))
      | codes => .error (.ambiguous ⟨Text.trimmed t, codes⟩) := by
  rw [apply_some, if_neg ht, read, hr, CountryResolver.single, if_neg ht]
  -- None, one or several codes: the row looks at nothing else of the list.
  cases resolve (Text.trimmed t) with
  | nil => rfl
  | cons c cs => cases cs <;> rfl

theorem apply_country_eq_some_iff (hr : row.reading = .country) (ht : Text.trimmed t ≠ "") :
    row.apply resolve (some t) = .ok (some v) ↔
      ∃ code, v = .text code ∧ resolve (Text.trimmed t) = [code] := by
  rw [apply_country hr ht]
  cases resolve (Text.trimmed t) with
  | nil => simp
  | cons c cs => cases cs <;> simp [eq_comm]

/-- A row of countries fails with all codes where there are several. -/
theorem apply_country_eq_error_iff (hr : row.reading = .country) (ht : Text.trimmed t ≠ "") :
    row.apply resolve (some t) = .error e ↔
      2 ≤ (resolve (Text.trimmed t)).length ∧
        e = .ambiguous ⟨Text.trimmed t, resolve (Text.trimmed t)⟩ := by
  rw [apply_country hr ht]
  cases resolve (Text.trimmed t) with
  | nil => simp
  | cons c cs => cases cs <;> simp [eq_comm]

end Row

namespace Reads

variable {resolve : CountryResolver} {raw s : String} {reading : Reading} {v : Value}

theorem kind? (h : Reads resolve raw reading v) : v.kind? = some reading.kind := by
  cases h <;> rfl

/-- Texts that are read off a clean field are clean, if those that codes stand for are. -/
theorem isClean (h : Reads resolve raw reading (.text s)) (hraw : Text.IsClean raw)
    (hresolve : ∀ code ∈ resolve raw, Text.IsClean code) : Text.IsClean s := by
  cases h with
  | text => exact hraw
  | classification => exact isClean_spellOut hraw
  -- A country is no part of the field, so this is where the table has to be clean.
  | country h =>
    refine hresolve s ?_
    rw [CountryResolver.single, if_neg hraw.ne_empty] at h
    split at h
    · cases h
    · rename_i hcodes
      obtain rfl := Option.some.inj (Except.ok.inj h)
      exact hcodes ▸ List.mem_singleton_self _
    · cases h

end Reads

/-! ## §5 Extractions -/

/-- Every value comes from a row of its name, whose field was not blank. -/
theorem exists_row_of_mem_values {table : Table} {resolve : CountryResolver} {fields : Fields}
    {name : String} {v : Value} (h : (name, v) ∈ (table.extract resolve fields).value.values) :
    ∃ row ∈ table, row.name = name ∧
      ∃ t ∈ fields row.field, Text.trimmed t ≠ "" ∧
        Reads resolve (Text.trimmed t) row.reading v := by
  rw [values_extract, Table.select, List.mem_filterMap] at h
  obtain ⟨row, hrow, hentry⟩ := h
  obtain ⟨v', hv', heq⟩ := Option.map_eq_some_iff.1 hentry
  obtain ⟨rfl, rfl⟩ := Prod.mk.inj heq
  exact ⟨row, hrow, rfl, Row.reads_of_apply ((row.value?_eq_some_iff _).1 hv')⟩

/-- **Extracted values are clean.** Whichever text the codes of countries were read from: a value
    is of the kind under which its attribute is declared, and a text is neither empty nor
    surrounded by blanks. A row whose field is missing or blank gives nothing. Of any other field a
    row for a number gives the number that the whole trimmed text writes, and fails with that text
    where it writes none of 64 bits; a row for a country gives the only code that the trimmed text
    stands for, and fails with all of them, in the order of the table, where there are several. -/
theorem extract_clean {table : Table} (h : table ∈ tables) (text : String) (fields : Fields) :
    let countries := (CountryTable.ofText text).value
    let e := (table.extract countries.resolve fields).value
    (∀ name v, (name, v) ∈ e.values →
      ∃ row ∈ table, row.name = name ∧ row.reading.kind = row.kind ∧
        v.kind? = some row.kind) ∧
    (∀ name s, (name, .text s) ∈ e.values → Text.IsClean s) ∧
    (∀ row ∈ table, (∀ t ∈ fields row.field, Text.trimmed t = "") →
      row.name ∉ e.values.map Prod.fst ∧ row.name ∉ e.failures.map Prod.fst) ∧
    (∀ row ∈ table, row.kind = .integer →
      ∀ t ∈ fields row.field, Text.trimmed t ≠ "" →
      (∀ v, (row.name, v) ∈ e.values ↔ ∃ n, v = .integer n ∧ WritesWord (Text.trimmed t) n) ∧
      (∀ err, (row.name, err) ∈ e.failures ↔
        (¬ ∃ n, WritesWord (Text.trimmed t) n) ∧
          err = .invalidInteger row.field (Text.trimmed t))) ∧
    ∀ row ∈ table, row.reading = .country → ∀ t ∈ fields row.field, Text.trimmed t ≠ "" →
      let codes := countries.resolve (Text.trimmed t)
      (∀ v, (row.name, v) ∈ e.values ↔ ∃ code, v = .text code ∧ codes = [code]) ∧
      (∀ err, (row.name, err) ∈ e.failures ↔
        2 ≤ codes.length ∧ err = .ambiguous ⟨Text.trimmed t, codes⟩) ∧
      (codes = [] → row.name ∉ e.values.map Prod.fst ∧ row.name ∉ e.failures.map Prod.fst) := by
  intro countries e
  have hnodup := nodup_of_mem_tables h
  refine ⟨fun name v hv => ?_, fun name s hs => ?_, fun row hrow hblank => ?_,
    fun row hrow hkind t ht hne => ?_, fun row hrow hcountry t ht hne => ?_⟩
  · obtain ⟨row, hrow, rfl, t, -, -, hreads⟩ := exists_row_of_mem_values hv
    -- The value is of the kind of the reading, and the row declares the same one.
    have hkind := kind_reading_eq h hrow
    exact ⟨row, hrow, rfl, hkind, hkind ▸ hreads.kind?⟩
  · obtain ⟨row, -, -, t, -, hne, hreads⟩ := exists_row_of_mem_values hs
    exact hreads.isClean (Text.isClean_trimmed hne) (CountryTable.isClean_ofText text _)
  · exact (not_mem_names_extract_iff hnodup hrow).2 fun t ht => .inl (hblank t ht)
  -- By its kind the row reads a number, so the two laws of numbers apply.
  · have hinteger := Reading.kind_eq_integer_iff.1 ((kind_reading_eq h hrow).trans hkind)
    refine ⟨fun v => ?_, fun err => ?_⟩
    · rw [mem_values_extract_iff hnodup hrow, Option.mem_def.1 ht,
        Row.apply_integer_eq_some_iff hinteger hne]
    · rw [mem_failures_extract_iff hnodup hrow, Option.mem_def.1 ht,
        Row.apply_integer_eq_error_iff hinteger hne]
  · refine ⟨fun v => ?_, fun err => ?_, fun hcodes => ?_⟩
    · rw [mem_values_extract_iff hnodup hrow, Option.mem_def.1 ht,
        Row.apply_country_eq_some_iff hcountry hne]
    · rw [mem_failures_extract_iff hnodup hrow, Option.mem_def.1 ht,
        Row.apply_country_eq_error_iff hcountry hne]
    · refine (not_mem_names_extract_iff hnodup hrow).2 fun t' ht' => .inr (.inr ⟨hcountry, ?_⟩)
      obtain rfl := Option.mem_unique ht ht'
      exact hcodes

/-- A number with a sign and zeros in front is read in full, and a code that may stand for two
    countries gives none of them. -/
theorem signed_number_read_in_full :
    let fields : Fields := fun code =>
      if code = "CLEVEL" then some " +007" else if code = "FSCLSY" then some "WE " else none
    let text := "US = USA\nWE: PSE , ISR,"
    let level : Row := ⟨"ext.nitf.complexity-level", "CLEVEL", .integer, .integer⟩
    let country : Row := ⟨"security.classification-system", "FSCLSY", .country, .text⟩
    let title : Row := ⟨"title", "FTITLE", .text, .text⟩
    let e := (headerTable.extract (CountryTable.ofText text).value.resolve fields).value
    headerTable ∈ tables ∧ level ∈ headerTable ∧ country ∈ headerTable ∧ title ∈ headerTable ∧
      level.kind = .integer ∧ Text.trimmed " +007" = "+007" ∧
      Text.trimmed "WE " = "WE" ∧
      (CountryTable.ofText text).value.resolve "WE" = ["PSE", "ISR"] ∧
      (level.name, .integer 7) ∈ e.values ∧
      (country.name, .ambiguous ⟨"WE", ["PSE", "ISR"]⟩) ∈ e.failures ∧
      title.name ∉ e.values.map Prod.fst := by
  intro fields text level country title e
  have htable : headerTable ∈ tables := by simp [tables]
  have hlevel : level ∈ headerTable := by decide +kernel
  have hcountry : country ∈ headerTable := by decide +kernel
  have htitle : title ∈ headerTable := by decide +kernel
  have hkind : level.kind = .integer := rfl
  have hnumber : Text.trimmed " +007" = "+007" := by decide +kernel
  have hcode : Text.trimmed "WE " = "WE" := by decide +kernel
  have hcodes : (CountryTable.ofText text).value.resolve "WE" = ["PSE", "ISR"] := by
    decide +kernel
  obtain ⟨-, -, hblank, hintegers, hcountries⟩ := extract_clean htable text fields
  have hwrites : WritesWord "+007" 7 := by
    refine ⟨?_, by decide, by decide⟩
    refine @Writes.plus ['0', '0', '7'] ⟨by decide, ?_⟩
    simp only [List.forall_mem_cons]
    exact ⟨by decide, by decide, by decide, fun _ h => absurd h List.not_mem_nil⟩
  have hvalue := (hintegers level hlevel hkind " +007" rfl (by rw [hnumber]; decide)).1
  have hfailure := (hcountries country hcountry rfl "WE " rfl (by rw [hcode]; decide)).2.1
  rw [hnumber] at hvalue
  rw [hcode, hcodes] at hfailure
  exact ⟨htable, hlevel, hcountry, htitle, hkind, hnumber, hcode, hcodes,
    (hvalue _).2 ⟨7, rfl, hwrites⟩, (hfailure _).2 ⟨le_rfl, rfl⟩,
    (hblank title htitle fun t ht => absurd ht (by simp [fields, title])).1⟩

/-- Rows of blank fields do not fail, although a blank text writes no number and although the table
    may have several codes for it. -/
theorem blank_fields_do_not_fail :
    let fields : Fields := fun code =>
      if code = "CLEVEL" then some "  " else if code = "FSCLSY" then some " " else none
    let countries := (CountryTable.ofText "=A,B").value
    let level : Row := ⟨"ext.nitf.complexity-level", "CLEVEL", .integer, .integer⟩
    let country : Row := ⟨"security.classification-system", "FSCLSY", .country, .text⟩
    let e := (headerTable.extract countries.resolve fields).value
    headerTable ∈ tables ∧ level ∈ headerTable ∧ country ∈ headerTable ∧
      level.kind = .integer ∧
      fields level.field = some "  " ∧ (¬ ∃ n, WritesWord (Text.trimmed "  ") n) ∧
      (level.name, .invalidInteger level.field (Text.trimmed "  ")) ∉ e.failures ∧
      fields country.field = some " " ∧
      countries.resolve (Text.trimmed " ") = ["A", "B"] ∧
      (country.name, .ambiguous ⟨Text.trimmed " ", ["A", "B"]⟩) ∉ e.failures := by
  intro fields countries level country e
  have htrim : Text.trimmed "  " = "" := by decide +kernel
  refine ⟨by simp [tables], by decide +kernel, by decide +kernel, by decide +kernel, rfl, ?_,
    by decide +kernel, rfl, by decide +kernel, by decide +kernel⟩
  rw [htrim]
  rintro ⟨n, hwrites, -⟩
  cases hwrites with
  | unsigned h => exact h.1 rfl

end Metadata

end Quicklook
