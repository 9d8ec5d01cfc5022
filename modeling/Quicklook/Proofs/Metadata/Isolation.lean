import Mathlib.Data.List.Nodup
import Mathlib.Data.List.Lemmas
import Quicklook.Metadata.Extraction

/-!
# Rows are isolated

The loop over a table fills two lists, and what a row puts into them depends on the text of
its own field and on nothing that came before. So both lists are selections from the rows of
the table, and selections of rows that read other fields do not notice what happens to one.

* `apply_eq_none_iff`: when a row gives neither a value nor a failure
* `values_extract`, `failures_extract`: the two lists, as selections from the rows
* `filter_select`: the part of a selection that belongs to some of the rows
* `extract_isolated`: the order of both lists, what each row gives, and two files that differ in
  one field
-/

namespace Quicklook.Metadata

/-- The tables that fields are extracted with. -/
def tables : List Table :=
  [headerTable, aircraftTable, identificationTable]

/-- No table has two rows for one attribute. -/
theorem nodup_of_mem_tables {table : Table} (h : table ∈ tables) : table.names.Nodup := by
  obtain ⟨hheader, haircraft, hidentification⟩ := nodup_names
  simp only [tables, List.mem_cons, List.not_mem_nil, or_false] at h
  -- There are three of them, and each was looked at by itself.
  rcases h with rfl | rfl | rfl
  · exact hheader
  · exact haircraft
  · exact hidentification

/-! ## §1 One row -/

namespace Row

variable (row : Row) (resolve : CountryResolver)

/-- A row has nothing to say about the text of its field: there is none, it is blank, it is no
    date where one is read, or it stands for no country where one is read. -/
def Silent (text : Option String) : Prop :=
  ∀ t ∈ text, Text.trimmed t = "" ∨
    (row.reading = .date ∧ Time.parseDate (Text.trimmed t) = none) ∨
    (row.reading = .country ∧ resolve (Text.trimmed t) = [])

/-- A code that is not empty stands for no country if nothing is listed for it. -/
theorem single_eq_none_iff {code : String} (h : code ≠ "") :
    resolve.single code = .ok none ↔ resolve code = [] := by
  rw [CountryResolver.single, if_neg h]
  cases resolve code with
  | nil => simp
  | cons c cs => cases cs <;> simp

/-- Only dates and countries are ever left out. -/
theorem read_eq_none_iff {raw : String} (h : raw ≠ "") :
    row.read resolve raw = .ok none ↔
      (row.reading = .date ∧ Time.parseDate raw = none) ∨
        (row.reading = .country ∧ resolve raw = []) := by
  -- The way of reading decides: a text always gives a value, and a number that cannot be read is a
  -- failure.
  cases hr : row.reading with
  | text => simp [read, hr]
  | classification => simp [read, hr]
  | integer => cases hn : integerOf raw.toList <;> simp [read, hr, hn]
  | date => simp [read, hr]
  | country =>
    rw [← single_eq_none_iff resolve h]
    cases hs : resolve.single raw <;> simp [read, hr, hs]

/-- A field that is there is trimmed, and read unless nothing is left of it. -/
theorem apply_some (t : String) :
    row.apply resolve (some t) =
      if Text.trimmed t = "" then .ok none else row.read resolve (Text.trimmed t) := rfl

/-- When a row gives neither a value nor a failure. -/
theorem apply_eq_none_iff (text : Option String) :
    row.apply resolve text = .ok none ↔ row.Silent resolve text := by
  cases text with
  | none => simp [apply, Silent]
  | some t =>
    rw [apply_some, Silent]
    -- A blank field is left out before it is read.
    by_cases h : Text.trimmed t = ""
    · simp [h]
    · rw [if_neg h, read_eq_none_iff row resolve h]
      simp [h]

/-- A row cannot read the text of its field: it is no number where one is read, or it may
    stand for several countries where one is read. -/
def Fails (text : Option String) : Prop :=
  ∃ t ∈ text, Text.trimmed t ≠ "" ∧
    ((row.reading = .integer ∧ integerOf (Text.trimmed t).toList = none) ∨
      (row.reading = .country ∧ 2 ≤ (resolve (Text.trimmed t)).length))

/-- A code is ambiguous from two countries on. -/
theorem exists_single_eq_error_iff {code : String} (h : code ≠ "") :
    (∃ e, resolve.single code = .error e) ↔ 2 ≤ (resolve code).length := by
  rw [CountryResolver.single, if_neg h]
  cases resolve code with
  | nil => simp
  | cons c cs => cases cs <;> simp

/-- Only numbers and countries ever fail. -/
theorem exists_read_eq_error_iff {raw : String} (h : raw ≠ "") :
    (∃ e, row.read resolve raw = .error e) ↔
      (row.reading = .integer ∧ integerOf raw.toList = none) ∨
        (row.reading = .country ∧ 2 ≤ (resolve raw).length) := by
  -- Again the way of reading decides, with a date that cannot be read being left out.
  cases hr : row.reading with
  | text => simp [read, hr]
  | classification => simp [read, hr]
  | integer => cases hn : integerOf raw.toList <;> simp [read, hr, hn]
  | date => simp [read, hr]
  | country =>
    rw [← exists_single_eq_error_iff resolve h]
    cases hs : resolve.single raw <;> simp [read, hr, hs]

/-- When a row fails. -/
theorem exists_apply_eq_error_iff (text : Option String) :
    (∃ e, row.apply resolve text = .error e) ↔ row.Fails resolve text := by
  cases text with
  | none => simp [apply, Fails]
  | some t =>
    rw [apply_some, Fails]
    by_cases h : Text.trimmed t = ""
    · simp [h]
    · rw [if_neg h, exists_read_eq_error_iff row resolve h]
      simp [h]

/-- The value of a row. -/
def value? (fields : Fields) : Option Value :=
  match row.apply resolve (fields row.field) with
  | .ok v => v
  | .error _ => none

/-- The failure of a row. -/
def error? (fields : Fields) : Option ExtractError :=
  match row.apply resolve (fields row.field) with
  | .ok _ => none
  | .error e => some e

theorem value?_eq_some_iff {fields : Fields} {v : Value} :
    row.value? resolve fields = some v ↔
      row.apply resolve (fields row.field) = .ok (some v) := by
  unfold value?
  cases row.apply resolve (fields row.field) <;> simp

theorem error?_eq_some_iff {fields : Fields} {e : ExtractError} :
    row.error? resolve fields = some e ↔ row.apply resolve (fields row.field) = .error e := by
  unfold error?
  cases row.apply resolve (fields row.field) <;> simp

/-- No row has both a value and a failure. -/
theorem value?_eq_none_or_error?_eq_none (fields : Fields) :
    row.value? resolve fields = none ∨ row.error? resolve fields = none := by
  unfold value? error?
  cases row.apply resolve (fields row.field) <;> simp

theorem value?_eq_none_and_error?_eq_none_iff {fields : Fields} :
    row.value? resolve fields = none ∧ row.error? resolve fields = none ↔
      row.apply resolve (fields row.field) = .ok none := by
  unfold value? error?
  cases row.apply resolve (fields row.field) <;> simp

end Row

/-! ## §2 Selections from the rows -/

namespace Table

/-- What rows give, under their names and in their order. -/
def select {α : Type} (table : Table) (entry : Row → Option α) : List (String × α) :=
  table.filterMap fun row => (entry row).map (row.name, ·)

variable {α β : Type} {table : Table} {entry : Row → Option α}

/-- A selection depends on the entries of the rows of its table only. -/
theorem select_congr {entry' : Row → Option α} (h : ∀ row ∈ table, entry row = entry' row) :
    table.select entry = table.select entry' :=
  List.filterMap_congr fun row hrow => by rw [h row hrow]

/-- The names in a selection are those of the rows that give something. -/
theorem names_select (table : Table) (entry : Row → Option α) :
    (table.select entry).map Prod.fst = names (table.filter fun row => (entry row).isSome) := by
  induction table with
  | nil => rfl
  | cons row rows ih =>
    rw [select] at ih ⊢
    -- A row without an entry leaves no name.
    cases he : entry row <;> simp_all [names]

/-- The names that are selected are in the order of the table. -/
theorem names_select_sublist (table : Table) (entry : Row → Option α) :
    ((table.select entry).map Prod.fst).Sublist table.names := by
  rw [names_select]
  exact List.filter_sublist.map _

theorem eq_of_name_eq (h : table.names.Nodup) {row row' : Row} (hr : row ∈ table)
    (hr' : row' ∈ table) (hname : row.name = row'.name) : row = row' :=
  List.inj_on_of_nodup_map h hr hr' hname

/-- Under the name of a row there is what this row gives. -/
theorem mem_select_iff (h : table.names.Nodup) {row : Row} (hr : row ∈ table) {a : α} :
    (row.name, a) ∈ table.select entry ↔ entry row = some a := by
  rw [select, List.mem_filterMap]
  constructor
  · rintro ⟨row', hr', he⟩
    obtain ⟨a', ha', heq⟩ := Option.map_eq_some_iff.1 he
    obtain ⟨hname, rfl⟩ := Prod.mk.inj heq
    -- Names are distinct, so this is the entry of the row itself.
    rw [← eq_of_name_eq h hr' hr hname]
    exact ha'
  · intro he
    exact ⟨row, hr, by rw [he]; rfl⟩

theorem not_mem_names_select_iff (h : table.names.Nodup) {row : Row} (hr : row ∈ table) :
    row.name ∉ (table.select entry).map Prod.fst ↔ entry row = none := by
  rw [Option.eq_none_iff_forall_ne_some, List.mem_map]
  constructor
  · intro hnot a ha
    exact hnot ⟨(row.name, a), (mem_select_iff h hr).2 ha, rfl⟩
  · rintro hnone ⟨⟨name, a⟩, hmem, rfl⟩
    exact hnone a ((mem_select_iff h hr).1 hmem)

theorem mem_names_select_iff (h : table.names.Nodup) {row : Row} (hr : row ∈ table) :
    row.name ∈ (table.select entry).map Prod.fst ↔ ∃ a, entry row = some a := by
  rw [← not_iff_not, not_mem_names_select_iff h hr, Option.eq_none_iff_forall_ne_some,
    not_exists]

/-- Two selections that never take from the same row have no name in common. -/
theorem disjoint_select (h : table.names.Nodup) {entry' : Row → Option β}
    (hone : ∀ row, entry row = none ∨ entry' row = none) :
    ((table.select entry).map Prod.fst).Disjoint ((table.select entry').map Prod.fst) := by
  intro name hname hname'
  obtain ⟨row, hr, rfl⟩ := List.mem_map.1 ((names_select_sublist table entry).subset hname)
  -- A name belongs to one row, which gives to one of the selections only.
  rcases hone row with hnone | hnone
  · exact (not_mem_names_select_iff h hr).2 hnone hname
  · exact (not_mem_names_select_iff h hr).2 hnone hname'

/-- The part of a selection that belongs to some of the rows is their own selection. -/
theorem filter_select (h : table.names.Nodup) (q : Row → Bool) :
    (table.select entry).filter (fun e => e.1 ∈ names (table.filter q)) =
      select (table.filter q) entry := by
  -- Whether a name belongs to the chosen rows is up to the row that has this name.
  have hrow : ∀ row ∈ table, decide (row.name ∈ names (table.filter q)) = q row := by
    intro row hr
    rw [Bool.eq_iff_iff, decide_eq_true_iff]
    constructor
    · intro hmem
      obtain ⟨row', hr', hname⟩ := List.mem_map.1 hmem
      obtain ⟨hr', hq⟩ := List.mem_filter.1 hr'
      rw [← eq_of_name_eq h hr' hr hname]
      exact hq
    · intro hq
      exact List.mem_map_of_mem (List.mem_filter.2 ⟨hr, hq⟩)
  rw [select, select, List.filter_filterMap, List.filterMap_filter]
  refine List.filterMap_congr fun row hr => ?_
  rw [← hrow row hr]
  cases entry row <;> simp [Option.filter]

/-- The rows that do not read a field. -/
def apartFrom (table : Table) (code : String) : Table :=
  table.filter (·.field ≠ code)

end Table

/-! ## §3 Extractions -/

variable (resolve : CountryResolver) (fields : Fields)

/-- The values are a selection from the rows. -/
theorem values_extract (table : Table) :
    (table.extract resolve fields).value.values = table.select (·.value? resolve fields) := by
  induction table with
  | nil => rfl
  | cons row rows ih =>
    simp only [Table.extract, Row.extract, Journal.value_bind, Journal.value_pure,
      Extraction.append, ih, Table.select, List.filterMap_cons, Row.value?]
    -- A failure does not end the loop, and an absent value leaves no entry.
    cases row.apply resolve (fields row.field) with
    | error e => rfl
    | ok v => cases v <;> rfl

theorem failures_extract (table : Table) :
    (table.extract resolve fields).value.failures = table.select (·.error? resolve fields) := by
  induction table with
  | nil => rfl
  | cons row rows ih =>
    simp only [Table.extract, Row.extract, Journal.value_bind, Journal.value_pure,
      Extraction.append, ih, Table.select, List.filterMap_cons, Row.error?]
    cases row.apply resolve (fields row.field) with
    | error e => rfl
    | ok v => cases v <;> rfl

/-- The part of an extraction that is about some names. -/
def Extraction.on (e : Extraction) (names : List String) : Extraction :=
  ⟨e.values.filter (·.1 ∈ names), e.failures.filter (·.1 ∈ names)⟩

/-- What an extraction says about some of the rows is the extraction with these rows. -/
theorem on_extract {table : Table} (h : table.names.Nodup) (q : Row → Bool) :
    (table.extract resolve fields).value.on (Table.names (table.filter q)) =
      (Table.extract resolve fields (table.filter q)).value := by
  rw [Extraction.on, values_extract, failures_extract, Table.filter_select h,
    Table.filter_select h, ← values_extract, ← failures_extract]

variable {resolve fields}

/-- Only the fields that a table reads matter. -/
theorem value_extract_congr {table : Table} {other : Fields}
    (h : ∀ row ∈ table, fields row.field = other row.field) :
    (table.extract resolve fields).value = (table.extract resolve other).value := by
  have hvalues : (table.extract resolve fields).value.values =
      (table.extract resolve other).value.values := by
    rw [values_extract, values_extract]
    exact Table.select_congr fun row hr => by rw [Row.value?, Row.value?, h row hr]
  have hfailures : (table.extract resolve fields).value.failures =
      (table.extract resolve other).value.failures := by
    rw [failures_extract, failures_extract]
    exact Table.select_congr fun row hr => by rw [Row.error?, Row.error?, h row hr]
  -- An extraction is its two lists.
  calc (table.extract resolve fields).value
      = ⟨(table.extract resolve fields).value.values,
          (table.extract resolve fields).value.failures⟩ := rfl
    _ = ⟨(table.extract resolve other).value.values,
          (table.extract resolve other).value.failures⟩ := by rw [hvalues, hfailures]

section Rows

variable {table : Table} (h : table.names.Nodup) {row : Row} (hr : row ∈ table)

include h hr

/-- A row has the value that its own field gives. -/
theorem mem_values_extract_iff {v : Value} :
    (row.name, v) ∈ (table.extract resolve fields).value.values ↔
      row.apply resolve (fields row.field) = .ok (some v) := by
  rw [values_extract, Table.mem_select_iff h hr, row.value?_eq_some_iff]

theorem mem_failures_extract_iff {e : ExtractError} :
    (row.name, e) ∈ (table.extract resolve fields).value.failures ↔
      row.apply resolve (fields row.field) = .error e := by
  rw [failures_extract, Table.mem_select_iff h hr, row.error?_eq_some_iff]

theorem mem_names_failures_extract_iff :
    row.name ∈ (table.extract resolve fields).value.failures.map Prod.fst ↔
      row.Fails resolve (fields row.field) := by
  rw [failures_extract, Table.mem_names_select_iff h hr, ← row.exists_apply_eq_error_iff]
  simp only [row.error?_eq_some_iff]

/-- A row is in neither list if it has nothing to say. -/
theorem not_mem_names_extract_iff :
    (row.name ∉ (table.extract resolve fields).value.values.map Prod.fst ∧
        row.name ∉ (table.extract resolve fields).value.failures.map Prod.fst) ↔
      row.Silent resolve (fields row.field) := by
  rw [values_extract, failures_extract, Table.not_mem_names_select_iff h hr,
    Table.not_mem_names_select_iff h hr, row.value?_eq_none_and_error?_eq_none_iff,
    row.apply_eq_none_iff]

end Rows

/-- Rows that do not read a field are extracted from all files alike that agree but for it. -/
theorem on_apartFrom_extract {table : Table} (h : table.names.Nodup) {other : Fields}
    {code : String} (hagree : ∀ c, c ≠ code → fields c = other c) :
    (table.extract resolve fields).value.on (table.apartFrom code).names =
      (table.extract resolve other).value.on (table.apartFrom code).names := by
  rw [Table.apartFrom, on_extract resolve fields h, on_extract resolve other h]
  refine value_extract_congr fun row hr => hagree row.field ?_
  simpa using (List.mem_filter.1 hr).2

/-- Where a row fails, every row that enters the text of the same field does so. -/
theorem exists_mem_values_of_fails {table : Table} (h : table.names.Nodup) {row raw : Row}
    (hfails : row.Fails resolve (fields row.field)) (hraw : raw ∈ table)
    (hfield : raw.field = row.field) (htext : raw.reading = .text) :
    ∃ t, fields row.field = some t ∧
      (raw.name, .text (Text.trimmed t)) ∈ (table.extract resolve fields).value.values := by
  -- The text is there and is not blank, or else the first row would not have failed.
  obtain ⟨t, ht, hblank, -⟩ := hfails
  refine ⟨t, ht, (mem_values_extract_iff h hraw).2 ?_⟩
  rw [hfield, ht, Row.apply_some, if_neg hblank, Row.read, htext]

/-! ## §4 Rows of the tables -/

/-- Where a country is read, the text of the field is entered as well. -/
theorem exists_raw_row {table : Table} (h : table ∈ tables) {row : Row} (hr : row ∈ table)
    (hc : row.reading = .country) :
    ∃ raw ∈ table, raw.field = row.field ∧ raw.reading = .text := by
  have hall : ∀ table ∈ tables, ∀ row ∈ table, row.reading = .country →
      ∃ raw ∈ table, raw.field = row.field ∧ raw.reading = .text := by
    decide +kernel
  exact hall table h row hr hc

/-- **Rows are isolated.** Values and failures stand in the order of the table and have no name
    in common; a row has a value, a failure or neither by the text of its own field, and neither
    exactly when it has nothing to say about that text; if the fields of two files agree but for
    one code, the extractions agree on all rows that do not read this code; and where a country
    cannot be told the text of the field is there all the same. -/
theorem extract_isolated {table : Table} (h : table ∈ tables) (resolve : CountryResolver)
    (fields : Fields) :
    let e := (table.extract resolve fields).value
    (e.values.map Prod.fst).Sublist table.names ∧
    (e.failures.map Prod.fst).Sublist table.names ∧
    (e.values.map Prod.fst).Disjoint (e.failures.map Prod.fst) ∧
    (∀ row ∈ table,
      (∀ v, (row.name, v) ∈ e.values ↔ row.apply resolve (fields row.field) = .ok (some v)) ∧
      (∀ err, (row.name, err) ∈ e.failures ↔
        row.apply resolve (fields row.field) = .error err) ∧
      (row.name ∈ e.failures.map Prod.fst ↔ row.Fails resolve (fields row.field)) ∧
      ((row.name ∉ e.values.map Prod.fst ∧ row.name ∉ e.failures.map Prod.fst) ↔
        row.Silent resolve (fields row.field))) ∧
    (∀ (other : Fields) (code : String), (∀ c, c ≠ code → fields c = other c) →
      e.on (table.apartFrom code).names =
        (table.extract resolve other).value.on (table.apartFrom code).names) ∧
    ∀ row ∈ table, row.reading = .country → row.name ∈ e.failures.map Prod.fst →
      (∃ raw ∈ table, raw.field = row.field ∧ raw.reading = .text) ∧
      ∀ raw ∈ table, raw.field = row.field → raw.reading = .text →
        ∃ t, fields row.field = some t ∧
          (raw.name, .text (Text.trimmed t)) ∈ e.values := by
  intro e
  have hnodup := nodup_of_mem_tables h
  refine ⟨?_, ?_, ?_, fun row hr => ?_, fun other code hagree => ?_, fun row hr hc hfail => ?_⟩
  · rw [values_extract]
    exact Table.names_select_sublist table _
  · rw [failures_extract]
    exact Table.names_select_sublist table _
  · rw [values_extract, failures_extract]
    exact Table.disjoint_select hnodup fun row =>
      row.value?_eq_none_or_error?_eq_none resolve fields
  · exact ⟨fun v => mem_values_extract_iff hnodup hr,
      fun err => mem_failures_extract_iff hnodup hr,
      mem_names_failures_extract_iff hnodup hr, not_mem_names_extract_iff hnodup hr⟩
  · exact on_apartFrom_extract hnodup hagree
  · have hfails := (mem_names_failures_extract_iff hnodup hr).1 hfail
    exact ⟨exists_raw_row h hr hc, fun raw hraw hfield htext =>
      exists_mem_values_of_fails hnodup hfails hraw hfield htext⟩

/-- A country code that may stand for two countries costs one row: the rest of the header is that
    of a file without the code, and the code itself is there as a text. -/
theorem ambiguous_country_fails_one_row :
    let resolve : CountryResolver := fun code => if code = "WE" then ["PSE", "ISR"] else []
    let other : Fields := fun code => if code = "FTITLE" then some "Harbour pass" else none
    let fields : Fields := fun code => if code = "FSCLSY" then some " WE " else other code
    let row : Row := ⟨"security.classification-system", "FSCLSY", .country, .text⟩
    let raw : Row := ⟨"ext.nitf.file-classification-security-system", "FSCLSY", .text, .text⟩
    let e := (headerTable.extract resolve fields).value
    headerTable ∈ tables ∧ (∀ c, c ≠ "FSCLSY" → fields c = other c) ∧
      row ∈ headerTable ∧ raw ∈ headerTable ∧ row.name ∈ e.failures.map Prod.fst ∧
      e.on (headerTable.apartFrom "FSCLSY").names =
        (headerTable.extract resolve other).value.on (headerTable.apartFrom "FSCLSY").names ∧
      (raw.name, .text "WE") ∈ e.values := by
  intro resolve other fields row raw e
  have htable : headerTable ∈ tables := by simp [tables]
  have hagree : ∀ c, c ≠ "FSCLSY" → fields c = other c := fun c hc => if_neg hc
  have hrow : row ∈ headerTable := by decide +kernel
  have hraw : raw ∈ headerTable := by decide +kernel
  have htrim : Text.trimmed " WE " = "WE" := by decide +kernel
  obtain ⟨-, -, -, hrows, hother, hcountry⟩ := extract_isolated htable resolve fields
  have hfails : row.Fails resolve (fields row.field) :=
    ⟨" WE ", rfl, by decide +kernel, .inr ⟨rfl, by rw [htrim]; decide⟩⟩
  have hfail : row.name ∈ e.failures.map Prod.fst := (hrows row hrow).2.2.1.2 hfails
  obtain ⟨t, ht, hvalue⟩ := (hcountry row hrow rfl hfail).2 raw hraw rfl rfl
  obtain rfl : " WE " = t := Option.some.inj ht
  exact ⟨htable, hagree, hrow, hraw, hfail, hother other "FSCLSY" hagree, htrim ▸ hvalue⟩

end Quicklook.Metadata
