import Quicklook.Pipeline.Item

/-!
# What is entered into a record

Renditions are entered one after another into a record that may hold anything already. What
one rendition changes is stated first, then by induction what a list of them changes.

* `other_addAll`: all attributes but two stay as they are
* `thumbnail_addAll`: the last thumbnail that is not empty replaces what was there
* `values_addAll`: the URIs of the other renditions are appended
* `resources_addAll`: the other renditions become resources
-/

namespace Quicklook

namespace Record

/-- The values under a name, if there is an attribute of that name. -/
def values? (r : Record) (name : String) : Option (List Value) :=
  (r.attribute? name).map Attribute.values

/-- Values with texts at their end. Without texts nothing changes, an absent list included. -/
def appendTexts (values : Option (List Value)) : List String → Option (List Value)
  | [] => values
  | texts => some (values.getD [] ++ texts.map Value.text)

theorem appendTexts_cons (values : Option (List Value)) (t : String) (ts : List String) :
    appendTexts (some (values.getD [] ++ [.text t])) ts = appendTexts values (t :: ts) := by
  cases ts with
  | nil => rfl
  | cons u us => simp [appendTexts]

/-- How many values there are where the URIs of derived resources are listed. -/
def uriCount (r : Record) : Nat :=
  ((r.values? derivedName).getD []).length

/-- Every text counts once, whether there was a list before or not. -/
theorem length_appendTexts (values : Option (List Value)) (texts : List String) :
    ((appendTexts values texts).getD []).length = (values.getD []).length + texts.length := by
  cases texts with
  | nil => rfl
  | cons t ts => simp [appendTexts]

theorem values?_register (r : Record) (uri : String) :
    (r.register uri).values? derivedName =
      some ((r.values? derivedName).getD [] ++ [.text uri]) := by
  rw [values?, attribute?_register, if_pos rfl, Option.map_some, values_withUri]
  rfl

theorem values?_withThumbnail (r : Record) (content : Bytes) :
    (r.withThumbnail content).values? derivedName = r.values? derivedName := by
  rw [values?, attribute?_withThumbnail, if_neg (by decide)]
  rfl

end Record

/-! ## §1 One rendition -/

namespace Rendition

/-- The file of a thumbnail that is not empty. -/
def thumbnail? (r : Rendition) : Option Bytes :=
  if r.role = .thumbnail ∧ r.content ≠ [] then some r.content else none

/-- Whether a rendition is stored as a resource of its own. -/
def isStored (r : Rendition) : Bool :=
  r.role ≠ .thumbnail

end Rendition

namespace Stored

open Record (thumbnailName derivedName derivedUri)

/-- What adding a rendition does: a thumbnail goes into the record unless it is empty, any
    other rendition leaves its URI there and becomes a resource. -/
theorem value_add (s : Stored) (r : Rendition) :
    (s.add r).value =
      if r.isStored then
        ⟨s.record.register (derivedUri s.record.id r.role.qualifier),
          s.resources ++ [.ofRendition s.record.id r]⟩
      else if r.content = [] then s
      else ⟨s.record.withThumbnail r.content, s.resources⟩ := by
  -- The role decides which of the two ways is taken.
  cases hr : r.role with
  | thumbnail => simp [add, hr, Rendition.isStored, Rendition.isEmpty]
  | overview => simp [add, hr, Rendition.isStored]
  | original => simp [add, hr, Rendition.isStored]

@[simp] theorem id_add (s : Stored) (r : Rendition) : (s.add r).value.record.id = s.record.id := by
  rw [value_add]
  split
  · exact Record.id_register _ _
  · split
    · rfl
    · exact Record.id_withThumbnail _ _

@[simp] theorem title_add (s : Stored) (r : Rendition) :
    (s.add r).value.record.title = s.record.title := by
  rw [value_add]
  split
  · exact Record.title_register _ _
  · split
    · rfl
    · exact Record.title_withThumbnail _ _

/-- A rendition touches the thumbnail and the list of URIs and no other attribute. -/
theorem other_add (s : Stored) (r : Rendition) {name : String} (ht : thumbnailName ≠ name)
    (hd : derivedName ≠ name) :
    (s.add r).value.record.attribute? name = s.record.attribute? name := by
  rw [value_add]
  split
  · rw [Record.attribute?_register, if_neg hd]
  · split
    · rfl
    · rw [Record.attribute?_withThumbnail, if_neg ht]

theorem thumbnail_add (s : Stored) (r : Rendition) :
    (s.add r).value.record.attribute? thumbnailName =
      match r.thumbnail? with
      | some content => some (.single thumbnailName (.binary content))
      | none => s.record.attribute? thumbnailName := by
  rw [value_add]
  by_cases hrole : r.role = .thumbnail
  -- An empty thumbnail is skipped, although its role would let it in.
  · by_cases hc : r.content = []
    · simp [Rendition.isStored, Rendition.thumbnail?, hrole, hc]
    · simp [Rendition.isStored, Rendition.thumbnail?, hrole, hc, Record.attribute?_withThumbnail]
  · have hname : ¬ derivedName = thumbnailName := by decide
    simp [Rendition.isStored, Rendition.thumbnail?, hrole, Record.attribute?_register, hname]

/-- A stored rendition leaves its URI behind those that are there. -/
theorem values_add (s : Stored) (r : Rendition) :
    (s.add r).value.record.values? derivedName =
      if r.isStored then
        some ((s.record.values? derivedName).getD [] ++
          [.text (derivedUri s.record.id r.role.qualifier)])
      else s.record.values? derivedName := by
  rw [value_add]
  split
  · exact Record.values?_register _ _
  · split
    · rfl
    · exact Record.values?_withThumbnail _ _

/-- A stored rendition is the last resource; a thumbnail is none. -/
theorem resources_add (s : Stored) (r : Rendition) :
    (s.add r).value.resources =
      s.resources ++ if r.isStored then [.ofRendition s.record.id r] else [] := by
  rw [value_add]
  split
  · rfl
  · split <;> exact (List.append_nil _).symm

/-! ## §2 A list of renditions -/

theorem value_addAll_cons (s : Stored) (r : Rendition) (rs : List Rendition) :
    (s.addAll (r :: rs)).value = ((s.add r).value.addAll rs).value := rfl

@[simp] theorem id_addAll (s : Stored) (rs : List Rendition) :
    (s.addAll rs).value.record.id = s.record.id := by
  induction rs generalizing s with
  | nil => rfl
  | cons r rs ih => rw [value_addAll_cons, ih, id_add]

@[simp] theorem title_addAll (s : Stored) (rs : List Rendition) :
    (s.addAll rs).value.record.title = s.record.title := by
  induction rs generalizing s with
  | nil => rfl
  | cons r rs ih => rw [value_addAll_cons, ih, title_add]

/-- All attributes but two stay as they are. -/
theorem other_addAll (s : Stored) (rs : List Rendition) {name : String}
    (ht : thumbnailName ≠ name) (hd : derivedName ≠ name) :
    (s.addAll rs).value.record.attribute? name = s.record.attribute? name := by
  induction rs generalizing s with
  | nil => rfl
  | cons r rs ih => rw [value_addAll_cons, ih, other_add s r ht hd]

/-- The last thumbnail that is not empty takes the place of any earlier one. -/
theorem thumbnail_addAll (s : Stored) (rs : List Rendition) :
    (s.addAll rs).value.record.attribute? thumbnailName =
      match (rs.filterMap Rendition.thumbnail?).getLast? with
      | some content => some (.single thumbnailName (.binary content))
      | none => s.record.attribute? thumbnailName := by
  induction rs generalizing s with
  | nil => rfl
  | cons r rs ih =>
    rw [value_addAll_cons, ih, thumbnail_add, List.filterMap_cons]
    -- The record that the others are added to has this thumbnail; theirs, if any, come later.
    cases r.thumbnail? with
    | none => rfl
    | some content =>
      simp only [List.getLast?_cons]
      cases (rs.filterMap Rendition.thumbnail?).getLast? <;> rfl

/-- The URIs of all stored renditions are appended, in their order. -/
theorem values_addAll (s : Stored) (rs : List Rendition) :
    (s.addAll rs).value.record.values? derivedName =
      Record.appendTexts (s.record.values? derivedName)
        ((rs.filter Rendition.isStored).map fun r => derivedUri s.record.id r.role.qualifier) := by
  -- Each URI is appended to those that the renditions before it have left.
  induction rs generalizing s with
  | nil => rfl
  | cons r rs ih =>
    rw [value_addAll_cons, ih, values_add, id_add, List.filter_cons]
    split
    · rw [List.map_cons, Record.appendTexts_cons]
    · rfl

/-- Every stored rendition becomes a resource of the record. -/
theorem resources_addAll (s : Stored) (rs : List Rendition) :
    (s.addAll rs).value.resources =
      s.resources ++ (rs.filter Rendition.isStored).map (.ofRendition s.record.id) := by
  induction rs generalizing s with
  | nil => exact (List.append_nil _).symm
  | cons r rs ih =>
    rw [value_addAll_cons, ih, resources_add, id_add, List.filter_cons]
    split
    · rw [List.map_cons, List.append_assoc, List.singleton_append]
    · rw [List.append_nil]

end Stored

end Quicklook
