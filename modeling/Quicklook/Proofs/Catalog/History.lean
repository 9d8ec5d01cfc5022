import Quicklook.Proofs.Metadata.Isolation
import Quicklook.Proofs.Pipeline.Item

/-!
# Histories of records

A record is changed in four ways: an item with it is processed, fields of a file are entered
into it, a thumbnail is attached, or a derived resource is registered. All of them write to one
map of attributes. What one change does to the two attributes of derived files is stated first,
and then by induction what any number of changes does.

* `values?_apply`, `attribute?_apply`: one change, on the two attributes
* `values?_after`, `attribute?_after`: a history of changes
* `after_remembers`: no URI is lost or moved, and the last thumbnail is there
-/

namespace Quicklook

open Record (thumbnailName derivedName)

/-! ## §1 Extractions leave both attributes alone -/

namespace Metadata

/-- No row of a table writes to the attributes of derived files. -/
theorem not_mem_names_of_mem_tables {table : Table} (h : table ∈ tables) :
    thumbnailName ∉ table.names ∧ derivedName ∉ table.names := by
  have hall : ∀ table ∈ tables, thumbnailName ∉ table.names ∧ derivedName ∉ table.names := by
    decide +kernel
  exact hall table h

namespace Extraction

/-- The values of an extraction are entered one after another, the first one first. -/
private theorem enterInto_cons (name : String) (v : Value) (values : List (String × Value))
    (failures : List (String × ExtractError)) (r : Record) :
    enterInto ⟨(name, v) :: values, failures⟩ r =
      enterInto ⟨values, failures⟩ (r.set (.single name v)) := rfl

@[simp] theorem id_enterInto (e : Extraction) (r : Record) : (e.enterInto r).id = r.id := by
  obtain ⟨values, failures⟩ := e
  induction values generalizing r with
  | nil => rfl
  | cons entry values ih => rw [enterInto_cons, ih, Record.id_set]

@[simp] theorem title_enterInto (e : Extraction) (r : Record) :
    (e.enterInto r).title = r.title := by
  obtain ⟨values, failures⟩ := e
  induction values generalizing r with
  | nil => rfl
  | cons entry values ih => rw [enterInto_cons, ih, Record.title_set]

/-- Only attributes with an extracted value change. -/
theorem attribute?_enterInto_of_not_mem {e : Extraction} {name : String}
    (h : name ∉ e.values.map Prod.fst) (r : Record) :
    (e.enterInto r).attribute? name = r.attribute? name := by
  obtain ⟨values, failures⟩ := e
  induction values generalizing r with
  | nil => rfl
  | cons entry values ih =>
    obtain ⟨hne, hrest⟩ := not_or.1 (mt List.mem_cons.2 h)
    rw [enterInto_cons, ih _ hrest, Record.attribute?_set, Attribute.name_single,
      if_neg (Ne.symm hne)]

end Extraction

/-- An extraction changes attributes of its own table only. -/
theorem attribute?_enterInto_extract {table : Table} {name : String} (h : name ∉ table.names)
    (resolve : CountryResolver) (fields : Fields) (r : Record) :
    ((table.extract resolve fields).value.enterInto r).attribute? name = r.attribute? name := by
  refine Extraction.attribute?_enterInto_of_not_mem (fun hmem => h ?_) r
  -- What is extracted comes from selected rows, and their names are among those of the table.
  rw [values_extract] at hmem
  exact (Table.names_select_sublist table _).subset hmem

end Metadata

/-! ## §2 One change -/

/-- What may happen to a record. -/
inductive Change where
  /-- An item with the record is processed, by any pipeline and with any resource. -/
  | process (p : Pipeline) (action : Action) (resource : Option Resource)
  /-- The fields of a file are extracted with one of the tables and entered. -/
  | enter (table : Metadata.Table) (known : table ∈ Metadata.tables)
      (resolve : CountryResolver) (fields : Metadata.Fields)
  | attach (content : Bytes)
  | register (uri : String)

namespace Change

/-- The record after a change. -/
def apply (r : Record) : Change → Record
  | process p action resource => (p.process ⟨action, resource, r⟩).value.item.record
  | enter table _ resolve fields => (table.extract resolve fields).value.enterInto r
  | attach content => r.withThumbnail content
  | register uri => r.register uri

/-- The URIs that a change registers on a record: for a processed item those of the overview and
    of the original, as far as there are files of them. Of the record only the identifier counts. -/
def uris (r : Record) : Change → List String
  | process p action resource => p.newUris ⟨action, resource, r⟩
  | register uri => [uri]
  | enter .. | attach _ => []

/-- The thumbnail that a change attaches to a record: for a processed item the file of its
    thumbnail stage, if there is one and it is not empty. Nothing of the record counts. -/
def attached? (r : Record) : Change → Option Bytes
  | process p action resource => (p.file? ⟨action, resource, r⟩ .thumbnail).filter (· ≠ [])
  | attach content => some content
  | enter .. | register _ => none

/-- Which URIs are registered depends on the identifier and on nothing else of the record. -/
theorem uris_congr {r s : Record} (h : r.id = s.id) (c : Change) : c.uris r = c.uris s := by
  cases c with
  | process p action resource =>
    -- The stages are made of the source, not of the record.
    have hfile : ∀ role, p.file? ⟨action, resource, r⟩ role =
        p.file? ⟨action, resource, s⟩ role := fun _ => rfl
    simp only [uris, Pipeline.newUris, hfile, h]
  | enter table known resolve fields => rfl
  | attach content => rfl
  | register uri => rfl

/-- Which thumbnail is attached does not depend on the record at all. -/
theorem attached?_congr (r s : Record) (c : Change) : c.attached? r = c.attached? s := by
  cases c <;> rfl

theorem id_apply (r : Record) (c : Change) : (c.apply r).id = r.id := by
  cases c with
  | process p action resource => exact (p.entered_process ⟨action, resource, r⟩).id
  | enter table known resolve fields => exact Metadata.Extraction.id_enterInto _ r
  | attach content => exact Record.id_withThumbnail r content
  | register uri => exact Record.id_register r uri

theorem title_apply (r : Record) (c : Change) : (c.apply r).title = r.title := by
  cases c with
  | process p action resource => exact (p.entered_process ⟨action, resource, r⟩).title
  | enter table known resolve fields => exact Metadata.Extraction.title_enterInto _ r
  | attach content => exact Record.title_withThumbnail r content
  | register uri => exact Record.title_register r uri

/-- A change appends the URIs that it registers to whatever values there are. -/
theorem values?_apply (r : Record) (c : Change) :
    (c.apply r).values? derivedName =
      Record.appendTexts (r.values? derivedName) (c.uris r) := by
  cases c with
  | process p action resource => exact (p.entered_process ⟨action, resource, r⟩).uris
  | enter table known resolve fields =>
    -- No row is called like the list of URIs.
    have hname := (Metadata.not_mem_names_of_mem_tables known).2
    have hsame := Metadata.attribute?_enterInto_extract hname resolve fields r
    simp only [apply, Record.values?, uris, Record.appendTexts, hsame]
  | attach content => exact Record.values?_withThumbnail r content
  | register uri => exact Record.values?_register r uri

/-- A change that attaches a thumbnail leaves it as the only value; any other change leaves the
    attribute as it is. -/
theorem attribute?_apply (r : Record) (c : Change) :
    (c.apply r).attribute? thumbnailName =
      match c.attached? r with
      | some content => some (.single thumbnailName (.binary content))
      | none => r.attribute? thumbnailName := by
  cases c with
  | process p action resource =>
    have hthumbnail := (p.entered_process ⟨action, resource, r⟩).thumbnail
    simp only [apply, attached?, hthumbnail]
    -- An empty file is not attached.
    cases p.file? ⟨action, resource, r⟩ .thumbnail with
    | none => rfl
    | some content => cases content <;> rfl
  | enter table known resolve fields =>
    exact Metadata.attribute?_enterInto_extract
      (Metadata.not_mem_names_of_mem_tables known).1 resolve fields r
  | attach content => exact (Record.attribute?_withThumbnail r content _).trans (if_pos rfl)
  | register uri =>
    -- URIs are listed under another name.
    exact (Record.attribute?_register r uri _).trans (if_neg (by decide +kernel))

end Change

/-! ## §3 Histories -/

namespace Record

/-- The record after changes, one after another. -/
def after (r : Record) (changes : List Change) : Record :=
  changes.foldl Change.apply r

theorem after_cons (r : Record) (c : Change) (changes : List Change) :
    r.after (c :: changes) = (c.apply r).after changes := rfl

theorem id_after (r : Record) (changes : List Change) : (r.after changes).id = r.id := by
  induction changes generalizing r with
  | nil => rfl
  | cons c changes ih => rw [after_cons, ih, c.id_apply]

theorem title_after (r : Record) (changes : List Change) :
    (r.after changes).title = r.title := by
  induction changes generalizing r with
  | nil => rfl
  | cons c changes ih => rw [after_cons, ih, c.title_apply]

theorem appendTexts_append (values : Option (List Value)) (ts us : List String) :
    appendTexts (appendTexts values ts) us = appendTexts values (ts ++ us) := by
  cases ts with
  | nil => rfl
  | cons t ts =>
    cases us with
    | nil => simp [appendTexts]
    | cons u us => simp [appendTexts]

/-- The URIs of all changes are appended, in the order of the changes. -/
theorem values?_after (r : Record) (changes : List Change) :
    (r.after changes).values? derivedName =
      appendTexts (r.values? derivedName) (changes.flatMap (·.uris r)) := by
  induction changes generalizing r with
  | nil => rfl
  | cons c changes ih =>
    -- The changes that follow see another record, but one with the same identifier.
    have hsame : changes.flatMap (·.uris (c.apply r)) = changes.flatMap (·.uris r) := by
      simp only [Change.uris_congr (c.id_apply r)]
    rw [after_cons, ih, hsame, c.values?_apply, appendTexts_append, List.flatMap_cons]

/-- The last thumbnail that was attached takes the place of all others. -/
theorem attribute?_after (r : Record) (changes : List Change) :
    (r.after changes).attribute? thumbnailName =
      match (changes.filterMap (·.attached? r)).getLast? with
      | some content => some (.single thumbnailName (.binary content))
      | none => r.attribute? thumbnailName := by
  induction changes generalizing r with
  | nil => rfl
  | cons c changes ih =>
    simp only [after_cons, ih, c.attribute?_apply, Change.attached?_congr (c.apply r) r,
      List.filterMap_cons]
    -- What the first change attaches is there at the end only if no later one attaches.
    cases c.attached? r with
    | none => rfl
    | some content =>
      simp only [List.getLast?_cons]
      cases (changes.filterMap (·.attached? r)).getLast? <;> rfl

theorem derivedUris_eq (r : Record) :
    r.derivedUris = ((r.values? derivedName).getD []).filterMap Value.text? := by
  unfold derivedUris values?
  cases r.attribute? derivedName <;> rfl

/-- Appended texts are found behind those that were there. -/
theorem filterMap_text?_appendTexts (values : Option (List Value)) (texts : List String) :
    ((appendTexts values texts).getD []).filterMap Value.text? =
      (values.getD []).filterMap Value.text? ++ texts := by
  cases texts with
  | nil => exact (List.append_nil _).symm
  | cons t ts =>
    have htexts : ((t :: ts).map Value.text).filterMap Value.text? = t :: ts := by
      rw [List.filterMap_map]
      exact List.filterMap_some
    simp only [appendTexts, Option.getD_some, List.filterMap_append, htexts]

/-- **A record remembers.** After any number of changes the derived URIs are those that were there
    at first and then those of all changes in their order, other values among them staying where
    they were; the thumbnail is the last one that was attached, as the only value of its
    attribute, or the first one if none was; the identifier and the title are as they were; and
    every attribute stands under its own name and has a value. -/
theorem after_remembers (r : Record) (changes : List Change) :
    (r.after changes).derivedUris = r.derivedUris ++ changes.flatMap (·.uris r) ∧
    (r.after changes).values? derivedName =
      appendTexts (r.values? derivedName) (changes.flatMap (·.uris r)) ∧
    (r.after changes).thumbnail? =
      (changes.filterMap (·.attached? r)).getLast?.or r.thumbnail? ∧
    (∀ content, (changes.filterMap (·.attached? r)).getLast? = some content →
      (r.after changes).values? thumbnailName = some [.binary content]) ∧
    (r.after changes).id = r.id ∧ (r.after changes).title = r.title ∧
    ∀ name a, (r.after changes).attribute? name = some a → a.name = name ∧ a.values ≠ [] := by
  have hlast := r.attribute?_after changes
  refine ⟨?_, r.values?_after changes, ?_, ?_, r.id_after changes, r.title_after changes, ?_⟩
  · rw [derivedUris_eq, r.values?_after, filterMap_text?_appendTexts, ← derivedUris_eq]
  · rw [thumbnail?, hlast]
    cases (changes.filterMap (·.attached? r)).getLast? <;> rfl
  · intro content hcontent
    rw [hcontent] at hlast
    rw [values?, hlast]
    rfl
  · intro name a ha
    exact ⟨name_of_attribute? ha, a.nonempty⟩

/-- A record with a number among its URIs and no thumbnail: a title is entered, an empty thumbnail
    attached and replaced, and one URI registered twice. -/
theorem uri_registered_twice_is_there_twice :
    let fields : Metadata.Fields := fun code => if code = "FTITLE" then some "b" else none
    let r := (empty "id" "a").set
      ((Attribute.single derivedName (.text "content:id#old")).push (.integer 7))
    let changes : List Change := [.attach [], .register "u",
      .enter Metadata.headerTable (List.mem_cons_self ..) (fun _ => []) fields, .attach [1],
      .register "u"]
    (changes.filterMap (·.attached? r)).getLast? = some [1] ∧
      (r.after changes).values? thumbnailName = some [.binary [1]] ∧
      (∃ a, (r.after changes).attribute? thumbnailName = some a ∧ a.name = thumbnailName ∧
        a.values ≠ []) ∧
      (r.after changes).derivedUris = ["content:id#old", "u", "u"] ∧
      (r.after changes).values? derivedName =
        some [.text "content:id#old", .integer 7, .text "u", .text "u"] := by
  intro fields r changes
  obtain ⟨huris, hvalues, -, hthumbnail, -, -, hnamed⟩ := r.after_remembers changes
  have hold : r.values? derivedName = some [.text "content:id#old", .integer 7] := by
    simp [r, values?, attribute?_set]
  have holdUris : r.derivedUris = ["content:id#old"] := by
    simp [derivedUris_eq, hold, Value.text?]
  obtain ⟨a, ha, -⟩ := Option.map_eq_some_iff.1 (hthumbnail [1] rfl)
  refine ⟨rfl, hthumbnail [1] rfl, ⟨a, ha, hnamed thumbnailName a ha⟩, ?_, ?_⟩
  · rw [huris, holdUris]
    rfl
  · rw [hvalues, hold]
    rfl

end Record

end Quicklook
