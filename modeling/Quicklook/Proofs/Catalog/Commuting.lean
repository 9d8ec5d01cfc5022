import Mathlib.Data.List.Pairwise
import Quicklook.Proofs.Catalog.History

/-!
# Changes that commute

A change of a record writes to some attributes and reads no others. So two changes that write to
different attributes may change places, and a record does not show in which order they came.

No name is in two of the tables, and none is that of an attribute of derived files. What the tables
extract can therefore be entered in any order, more than once, and before or after the pipeline.

* `attribute?_enterInto`, `attribute?_enterAll`: what is found after extractions were entered
* `Change.apply_comm`: changes that write to different attributes
* `enterAll_any_order`: the extractions of all tables
-/

namespace Quicklook

open Record (thumbnailName derivedName)

/-! ## §1 Extractions one after another -/

namespace Metadata

/-- No name is in two tables. -/
theorem eq_of_mem_names {table table' : Table} (h : table ∈ tables) (h' : table' ∈ tables)
    {name : String} (hn : name ∈ table.names) (hn' : name ∈ table'.names) : table = table' := by
  have hapart : tables.Pairwise fun t t' => ∀ name ∈ t.names, name ∉ t'.names := by
    decide +kernel
  have hsymm : Std.Symm fun t t' : Table => ∀ name ∈ t.names, name ∉ t'.names :=
    ⟨fun _ _ h name hn hn' => h name hn' hn⟩
  -- Two different tables have no name in common, in whatever order they come.
  by_contra hne
  exact hapart.forall h h' hne name hn hn'

namespace Extraction

/-- No name has two values. -/
def Distinct (e : Extraction) : Prop :=
  (e.values.map Prod.fst).Nodup

theorem value?_eq_none_iff {e : Extraction} {name : String} :
    e.value? name = none ↔ name ∉ e.values.map Prod.fst := by
  rw [value?, Option.map_eq_none_iff, List.find?_eq_none, List.mem_map, not_exists]
  exact forall_congr' fun entry => by simp

theorem mem_of_value? {e : Extraction} {name : String} {v : Value} (h : e.value? name = some v) :
    (name, v) ∈ e.values := by
  obtain ⟨entry, hentry, rfl⟩ := Option.map_eq_some_iff.1 h
  have hname : entry.1 = name := by simpa using List.find?_some hentry
  exact hname ▸ List.mem_of_find?_eq_some hentry

/-- Where no name has two values, every extracted value is found. -/
theorem Distinct.value?_eq_some_iff {e : Extraction} (h : e.Distinct) {name : String} {v : Value} :
    e.value? name = some v ↔ (name, v) ∈ e.values := by
  refine ⟨mem_of_value?, fun hmem => ?_⟩
  cases hv : e.value? name with
  | none => exact absurd (List.mem_map_of_mem hmem) (value?_eq_none_iff.1 hv)
  | some v' =>
    have heq : (name, v') = (name, v) := List.inj_on_of_nodup_map h (mem_of_value? hv) hmem rfl
    rw [(Prod.mk.inj heq).2]

/-- What is found in a record after an extraction was entered. -/
theorem Distinct.attribute?_enterInto {e : Extraction} (h : e.Distinct) (r : Record)
    (name : String) :
    (e.enterInto r).attribute? name =
      match e.value? name with
      | some v => some (.single name v)
      | none => r.attribute? name := by
  cases hv : e.value? name with
  | none => exact attribute?_enterInto_of_not_mem (value?_eq_none_iff.1 hv) r
  | some v =>
    -- What is entered after the value of a name has other names.
    obtain ⟨before, after, hvalues⟩ := List.append_of_mem (mem_of_value? hv)
    have hlater : name ∉ (⟨after, e.failures⟩ : Extraction).values.map Prod.fst := by
      rw [Distinct, hvalues, List.map_append, List.map_cons] at h
      exact (List.nodup_cons.1 (List.nodup_append.1 h).2.1).1
    have hsplit : e.enterInto r = (⟨after, e.failures⟩ : Extraction).enterInto
        (((⟨before, e.failures⟩ : Extraction).enterInto r).set (.single name v)) := by
      simp only [enterInto, hvalues, List.foldl_append, List.foldl_cons]
    rw [hsplit, attribute?_enterInto_of_not_mem hlater, Record.attribute?_set,
      Attribute.name_single, if_pos rfl]

/-- The record with extractions entered, one after another. -/
def enterAll (es : List Extraction) (r : Record) : Record :=
  es.foldl (fun r e => e.enterInto r) r

variable {es es' : List Extraction}

theorem enterAll_cons (e : Extraction) (es : List Extraction) (r : Record) :
    enterAll (e :: es) r = enterAll es (e.enterInto r) := rfl

theorem id_enterAll (es : List Extraction) (r : Record) : (enterAll es r).id = r.id := by
  induction es generalizing r with
  | nil => rfl
  | cons e es ih => rw [enterAll_cons, ih, id_enterInto]

theorem title_enterAll (es : List Extraction) (r : Record) : (enterAll es r).title = r.title := by
  induction es generalizing r with
  | nil => rfl
  | cons e es ih => rw [enterAll_cons, ih, title_enterInto]

/-- No two of the extractions have different values for a name. -/
structure Agree (es : List Extraction) : Prop where
  distinct : ∀ e ∈ es, e.Distinct
  eq_of_value? : ∀ e ∈ es, ∀ e' ∈ es, ∀ name v v',
    e.value? name = some v → e'.value? name = some v' → v = v'

theorem Agree.of_cons {e : Extraction} (h : Agree (e :: es)) : Agree es where
  distinct d hd := h.distinct d (List.mem_cons_of_mem _ hd)
  eq_of_value? d hd d' hd' :=
    h.eq_of_value? d (List.mem_cons_of_mem _ hd) d' (List.mem_cons_of_mem _ hd')

/-- What no extraction has a value for stays as it is. -/
theorem attribute?_enterAll_of_none {name : String} (h : ∀ e ∈ es, e.value? name = none)
    (r : Record) : (enterAll es r).attribute? name = r.attribute? name := by
  induction es generalizing r with
  | nil => rfl
  | cons e es ih =>
    have hhead := h e (List.mem_cons_self ..)
    rw [enterAll_cons, ih fun d hd => h d (List.mem_cons_of_mem _ hd),
      attribute?_enterInto_of_not_mem (value?_eq_none_iff.1 hhead)]

/-- What one extraction has a value for holds that value, wherever the extraction comes. -/
theorem Agree.attribute?_enterAll (h : Agree es) {e : Extraction} (he : e ∈ es) {name : String}
    {v : Value} (hv : e.value? name = some v) (r : Record) :
    (enterAll es r).attribute? name = some (.single name v) := by
  induction es generalizing r e with
  | nil => exact absurd he List.not_mem_nil
  | cons d es ih =>
    rw [enterAll_cons]
    by_cases hrest : ∃ e' ∈ es, ∃ v', e'.value? name = some v'
    -- A later one has a value too, and it is the same.
    · obtain ⟨e', he', v', hv'⟩ := hrest
      obtain rfl := h.eq_of_value? e he e' (List.mem_cons_of_mem _ he') name v v' hv hv'
      exact ih h.of_cons he' hv' _
    · have hnone : ∀ e' ∈ es, e'.value? name = none := fun e' he' =>
        Option.eq_none_iff_forall_ne_some.2 fun v' hv' => hrest ⟨e', he', v', hv'⟩
      -- No later one has a value, so it is this one, and it is not overwritten.
      rcases List.mem_cons.1 he with rfl | he'
      · rw [attribute?_enterAll_of_none hnone,
          (h.distinct e (List.mem_cons_self ..)).attribute?_enterInto, hv]
      · rw [hnone e he'] at hv
        cases hv

/-- Which extractions there are counts, and neither their order nor how often each comes. -/
theorem Agree.enterAll_eq (h : Agree es) (h' : Agree es') (hmem : ∀ e, e ∈ es ↔ e ∈ es')
    (r : Record) : enterAll es r = enterAll es' r := by
  refine Record.ext_attribute? ?_ ?_ fun name => ?_
  · rw [id_enterAll, id_enterAll]
  · rw [title_enterAll, title_enterAll]
  -- A name has its one value from any of the extractions, or is left alone by all.
  · by_cases hvalue : ∃ e ∈ es, ∃ v, e.value? name = some v
    · obtain ⟨e, he, v, hv⟩ := hvalue
      rw [h.attribute?_enterAll he hv, h'.attribute?_enterAll ((hmem e).1 he) hv]
    · have hnone : ∀ e ∈ es, e.value? name = none := fun e he =>
        Option.eq_none_iff_forall_ne_some.2 fun v hv => hvalue ⟨e, he, v, hv⟩
      rw [attribute?_enterAll_of_none hnone,
        attribute?_enterAll_of_none fun e he => hnone e ((hmem e).2 he)]

end Extraction

/-- The names of what is extracted are those of the table, as far as there are values. -/
theorem names_extract_sublist (table : Table) (resolve : CountryResolver) (fields : Fields) :
    ((table.extract resolve fields).value.values.map Prod.fst).Sublist table.names := by
  rw [values_extract]
  exact Table.names_select_sublist table _

theorem distinct_extract {table : Table} (h : table ∈ tables) (resolve : CountryResolver)
    (fields : Fields) : (table.extract resolve fields).value.Distinct :=
  (names_extract_sublist table resolve fields).nodup (nodup_of_mem_tables h)

theorem mem_names_of_value? {table : Table} {resolve : CountryResolver} {fields : Fields}
    {name : String} {v : Value}
    (h : (table.extract resolve fields).value.value? name = some v) : name ∈ table.names :=
  (names_extract_sublist table resolve fields).subset
    (List.mem_map_of_mem (Extraction.mem_of_value? h))

/-- Extractions with different tables have no name in common. -/
theorem agree_extract {order : List Table} (h : ∀ table ∈ order, table ∈ tables)
    (resolve : Table → CountryResolver) (fields : Table → Fields) :
    Extraction.Agree
      (order.map fun table => (table.extract (resolve table) (fields table)).value) where
  distinct e he := by
    obtain ⟨table, htable, rfl⟩ := List.mem_map.1 he
    exact distinct_extract (h table htable) _ _
  eq_of_value? e he e' he' name v v' hv hv' := by
    obtain ⟨table, htable, rfl⟩ := List.mem_map.1 he
    obtain ⟨table', htable', rfl⟩ := List.mem_map.1 he'
    obtain rfl := eq_of_mem_names (h table htable) (h table' htable') (mem_names_of_value? hv)
      (mem_names_of_value? hv')
    exact Option.some.inj (hv.symm.trans hv')

end Metadata

/-! ## §2 Changes that write to different attributes -/

namespace Record

/-- An attribute is its values, since its name is the one it stands under. -/
theorem attribute?_eq_of_values?_eq {r s : Record} {name : String}
    (h : r.values? name = s.values? name) : r.attribute? name = s.attribute? name := by
  unfold values? at h
  cases hr : r.attribute? name with
  | none =>
    rw [hr] at h
    exact (Option.map_eq_none_iff.1 h.symm).symm
  | some a =>
    rw [hr] at h
    obtain ⟨b, hb, hvalues⟩ := Option.map_eq_some_iff.1 h.symm
    have hname : a.name = b.name := (name_of_attribute? hr).trans (name_of_attribute? hb).symm
    rw [hb]
    cases a
    cases b
    simp_all

end Record

namespace Change

/-- The attributes that a change may write to. -/
def names : Change → List String
  | process .. => [thumbnailName, derivedName]
  | enter table .. => table.names
  | attach _ => [thumbnailName]
  | register _ => [derivedName]

variable {c d : Change} {name : String}

/-- A change leaves every attribute alone that it does not write to. -/
theorem attribute?_apply_of_not_mem (h : name ∉ c.names) (r : Record) :
    (c.apply r).attribute? name = r.attribute? name := by
  cases c with
  | process p action resource =>
    simp only [names, List.mem_cons, List.not_mem_nil, or_false, not_or] at h
    exact (p.entered_process ⟨action, resource, r⟩).other name h.1 h.2
  | enter table known resolve fields =>
    exact Metadata.attribute?_enterInto_extract h resolve fields r
  | attach content =>
    rw [names, List.mem_singleton] at h
    exact (Record.attribute?_withThumbnail r content name).trans (if_neg (Ne.symm h))
  | register uri =>
    rw [names, List.mem_singleton] at h
    exact (Record.attribute?_register r uri name).trans (if_neg (Ne.symm h))

/-- What a change leaves under a name depends on what was there, and otherwise on nothing of the
    record but its identifier. -/
theorem attribute?_apply_congr {r s : Record} (hid : r.id = s.id)
    (h : r.attribute? name = s.attribute? name) :
    (c.apply r).attribute? name = (c.apply s).attribute? name := by
  -- A name that is written to is that of the thumbnail, of the URIs or of a row.
  by_cases hname : name ∈ c.names
  · by_cases hthumbnail : name = thumbnailName
    · subst hthumbnail
      rw [attribute?_apply, attribute?_apply, attached?_congr r s, h]
    · by_cases hderived : name = derivedName
      · subst hderived
        apply Record.attribute?_eq_of_values?_eq
        rw [values?_apply, values?_apply, uris_congr hid, Record.values?, Record.values?, h]
      · cases c with
        | enter table known resolve fields =>
          have hdistinct := Metadata.distinct_extract known resolve fields
          simp only [apply, hdistinct.attribute?_enterInto, h]
        | process p action resource => simp [names, hthumbnail, hderived] at hname
        | attach content => simp [names, hthumbnail] at hname
        | register uri => simp [names, hderived] at hname
  · rw [attribute?_apply_of_not_mem hname, attribute?_apply_of_not_mem hname, h]

/-- Changes that write to different attributes may change places. -/
theorem apply_comm (h : c.names.Disjoint d.names) (r : Record) :
    c.apply (d.apply r) = d.apply (c.apply r) := by
  refine Record.ext_attribute? ?_ ?_ fun name => ?_
  · simp only [id_apply]
  · simp only [title_apply]
  · by_cases hd : name ∈ d.names
    -- The other change does not touch this name, before or after.
    · have hc : name ∉ c.names := fun hc => h hc hd
      rw [attribute?_apply_of_not_mem hc]
      exact attribute?_apply_congr (c.id_apply r).symm (attribute?_apply_of_not_mem hc r).symm
    · rw [attribute?_apply_of_not_mem hd (c.apply r)]
      exact attribute?_apply_congr (d.id_apply r) (attribute?_apply_of_not_mem hd r)

end Change

/-! ## §3 The extractions of all tables -/

namespace Metadata

/-- What is extracted with a table, each of them from its own file. -/
def Table.extracted (resolve : Table → CountryResolver) (fields : Table → Fields) (table : Table) :
    Extraction :=
  (table.extract (resolve table) (fields table)).value

/-- The name of a row that is silent or fails has no value, whichever tables are used. -/
theorem not_mem_names_extracted {table table' : Table} (h : table ∈ tables) (h' : table' ∈ tables)
    {resolve : Table → CountryResolver} {fields : Table → Fields} {row : Row} (hr : row ∈ table)
    (hnothing : row.Silent (resolve table) (fields table row.field) ∨
      row.Fails (resolve table) (fields table row.field)) :
    row.name ∉ (table'.extracted resolve fields).values.map Prod.fst := by
  intro hmem
  -- The row is the only one that has its name.
  obtain rfl := eq_of_mem_names h h' (List.mem_map_of_mem hr)
    ((names_extract_sublist table' _ _).subset hmem)
  rw [Table.extracted, values_extract] at hmem
  obtain ⟨v, hv⟩ := (Table.mem_names_select_iff (nodup_of_mem_tables h) hr).1 hmem
  rw [row.value?_eq_some_iff] at hv
  rcases hnothing with hsilent | hfails
  · rw [(row.apply_eq_none_iff _ _).2 hsilent] at hv
    cases hv
  · obtain ⟨e, he⟩ := (row.exists_apply_eq_error_iff _ _).2 hfails
    rw [he] at hv
    cases hv

/-- **Entering commutes.** Whatever is extracted with the tables, each from a file of its own: if
    all of it is entered into a record, in any order and each part once or more, the result is the
    same. Every extracted name then holds its one value; every other attribute is as it was, that
    of a row without a value among them, and so are the identifier and the title. And each part may
    change places with the attachment of a thumbnail, with the registration of a derived resource,
    and with the processing of an item, by any pipeline and with any resource. -/
theorem enterAll_any_order (r : Record) (resolve : Table → CountryResolver)
    (fields : Table → Fields) :
    (∀ order : List Table, (∀ table, table ∈ order ↔ table ∈ tables) →
      let entered := Extraction.enterAll (order.map (Table.extracted resolve fields)) r
      (∀ order' : List Table, (∀ table, table ∈ order' ↔ table ∈ tables) →
        Extraction.enterAll (order'.map (Table.extracted resolve fields)) r = entered) ∧
      (∀ table ∈ tables, ∀ name v, (name, v) ∈ (table.extracted resolve fields).values →
        entered.attribute? name = some (.single name v)) ∧
      (∀ name, (∀ table ∈ tables,
          name ∉ (table.extracted resolve fields).values.map Prod.fst) →
        entered.attribute? name = r.attribute? name) ∧
      (∀ table ∈ tables, ∀ row ∈ table,
        row.Silent (resolve table) (fields table row.field) ∨
          row.Fails (resolve table) (fields table row.field) →
        entered.attribute? row.name = r.attribute? row.name) ∧
      entered.id = r.id ∧ entered.title = r.title) ∧
    ∀ table ∈ tables,
      let e := table.extracted resolve fields
      (∀ content, e.enterInto (r.withThumbnail content) =
        (e.enterInto r).withThumbnail content) ∧
      (∀ uri, e.enterInto (r.register uri) = (e.enterInto r).register uri) ∧
      ∀ (p : Pipeline) (action : Action) (resource : Option Resource),
        e.enterInto (p.process ⟨action, resource, r⟩).value.item.record =
          (p.process ⟨action, resource, e.enterInto r⟩).value.item.record := by
  refine ⟨fun order horder => ?_, fun table htable => ?_⟩
  · have hagree := agree_extract (fun table => (horder table).1) resolve fields
    -- What no table has a value for is not touched.
    have hother : ∀ name, (∀ table ∈ tables,
        name ∉ (table.extracted resolve fields).values.map Prod.fst) →
        (Extraction.enterAll (order.map (Table.extracted resolve fields)) r).attribute? name =
          r.attribute? name := fun name hname => by
      refine Extraction.attribute?_enterAll_of_none (fun e he => ?_) r
      obtain ⟨table, htable, rfl⟩ := List.mem_map.1 he
      exact Extraction.value?_eq_none_iff.2 (hname table ((horder table).1 htable))
    refine ⟨fun order' horder' => ?_, fun table htable name v hv => ?_, hother,
      fun table htable row hrow hnothing => hother row.name fun table' htable' =>
        not_mem_names_extracted htable htable' hrow hnothing,
      Extraction.id_enterAll _ r, Extraction.title_enterAll _ r⟩
    -- Both orders have the same tables, so they have the same extractions.
    · refine Extraction.Agree.enterAll_eq
        (agree_extract (fun table => (horder' table).1) resolve fields) hagree (fun e => ?_) r
      simp only [List.mem_map, horder, horder']
    · have hvalue := (distinct_extract htable _ _).value?_eq_some_iff.2 hv
      exact hagree.attribute?_enterAll
        (List.mem_map_of_mem ((horder table).2 htable)) hvalue r
  · obtain ⟨hthumbnail, hderived⟩ := not_mem_names_of_mem_tables htable
    let c : Change := .enter table htable (resolve table) (fields table)
    refine ⟨fun content => ?_, fun uri => ?_, fun p action resource => ?_⟩
    · exact Change.apply_comm (c := c) (d := .attach content) (by simpa [c, Change.names]) r
    · exact Change.apply_comm (c := c) (d := .register uri) (by simpa [c, Change.names]) r
    · refine Change.apply_comm (c := c) (d := .process p action resource) ?_ r
      simpa [c, Change.names] using ⟨hthumbnail, hderived⟩

/-- A title replaces an earlier one, a country that cannot be told leaves an earlier one where it
    is, and a header that is entered a second time changes nothing. -/
theorem header_entered_twice :
    let resolve : Table → CountryResolver := fun _ _ => ["PSE", "ISR"]
    let fields : Table → Fields := fun _ code =>
      if code = "FTITLE" then some "Harbour " else if code = "COUNTRY" then some "WE" else none
    let r := ((Record.empty "id" "a").set (.single "title" (.text "b"))).set
      (.single "location.country-code" (.text "FRA"))
    let order := [headerTable, identificationTable, headerTable, aircraftTable]
    let order' := [aircraftTable, identificationTable, headerTable]
    let entered := Extraction.enterAll (order.map (Table.extracted resolve fields)) r
    (∀ table, table ∈ order ↔ table ∈ tables) ∧ (∀ table, table ∈ order' ↔ table ∈ tables) ∧
      headerTable ∈ tables ∧ identificationTable ∈ tables ∧
      ("title", .text "Harbour") ∈ (headerTable.extracted resolve fields).values ∧
      Row.mk "location.country-code" "COUNTRY" .country .text ∈ identificationTable ∧
      (Row.mk "location.country-code" "COUNTRY" .country .text).Fails
        (resolve identificationTable) (fields identificationTable "COUNTRY") ∧
      Extraction.enterAll (order'.map (Table.extracted resolve fields)) r = entered ∧
      entered.attribute? "title" = some (.single "title" (.text "Harbour")) ∧
      entered.attribute? "location.country-code" =
        some (.single "location.country-code" (.text "FRA")) ∧
      (∀ table ∈ tables,
        "created" ∉ (table.extracted resolve fields).values.map Prod.fst) ∧
      entered.attribute? "created" = none ∧
      (headerTable.extracted resolve fields).enterInto (r.withThumbnail [1]) =
        ((headerTable.extracted resolve fields).enterInto r).withThumbnail [1] := by
  intro resolve fields r order order' entered
  have horder : ∀ table, table ∈ order ↔ table ∈ tables := fun table => by
    simp only [order, tables, List.mem_cons]
    tauto
  have horder' : ∀ table, table ∈ order' ↔ table ∈ tables := fun table => by
    simp only [order', tables, List.mem_cons]
    tauto
  have hheader : headerTable ∈ tables := by simp [tables]
  have hidentification : identificationTable ∈ tables := by simp [tables]
  have htitle : ("title", .text "Harbour") ∈ (headerTable.extracted resolve fields).values := by
    decide +kernel
  have hrow : Row.mk "location.country-code" "COUNTRY" .country .text ∈ identificationTable := by
    decide +kernel
  have hfails : (Row.mk "location.country-code" "COUNTRY" .country .text).Fails
      (resolve identificationTable) (fields identificationTable "COUNTRY") :=
    ⟨"WE", rfl, by decide +kernel, .inr ⟨rfl, le_rfl⟩⟩
  obtain ⟨hentered, hcommutes⟩ := enterAll_any_order r resolve fields
  obtain ⟨hsame, hvalues, hother, hnothing, -⟩ := hentered order horder
  have hcountry := hnothing identificationTable hidentification _ hrow (.inr hfails)
  have hdate : ∀ table ∈ tables,
      "created" ∉ (table.extracted resolve fields).values.map Prod.fst := by
    decide +kernel
  have hold : r.attribute? "location.country-code" =
      some (.single "location.country-code" (.text "FRA")) :=
    (Record.attribute?_set _ _ _).trans (if_pos rfl)
  have hnone : r.attribute? "created" = none := by
    simp [r, Record.attribute?_set]
  exact ⟨horder, horder', hheader, hidentification, htitle, hrow, hfails, hsame order' horder',
    hvalues headerTable hheader _ _ htitle, hcountry.trans hold, hdate,
    (hother "created" hdate).trans hnone, (hcommutes headerTable hheader).1 [1]⟩

end Metadata

end Quicklook
