import Mathlib.Data.List.Forall2
import Quicklook.Proofs.Pipeline.Entry
import Quicklook.Proofs.Pipeline.Stages

/-!
# What an item becomes

The result of processing an item is described by the files of its three stages, and the file
of a stage by what the collaborators answer: the gate lets the source pass, the stream gives
its bytes, the decoder a picture, and the encoder a file for the stage's own request.

* `outcome_derive`: the outcome of a source is that of its picture
* `renditions_deriveItem`: the renditions of an item are the files of its stages
* `process_entered`: the item that comes out first, and the items derived from it
-/

namespace Quicklook

open Record (thumbnailName derivedName derivedUri)

namespace Pipeline

variable (p : Pipeline)

/-! ## §1 Sources and their pictures -/

/-- The picture of a source that passes the gate, can be read to its end, and is decoded. -/
def picture? (resource : Resource) : Option Raster := do
  (gate p.settings.rendering.maxSourceMb (some resource)).value.toOption
  let content ← resource.stream.contents.toOption
  let decoded ← (p.decoder (.ofBytes content)).value.toOption
  decoded

/-- The file of a stage: it is enabled, there is a picture, and the encoder answers. -/
def file? (item : Item) (role : Role) : Option Bytes := do
  let resource ← item.resource
  let raster ← p.picture? resource
  if p.enabled role then (p.answer raster role).toOption else none

/-- Only a picture is rendered; without one there is no rendition and no failure. -/
private theorem value_finish (name title : String) (decoded : Decoded) :
    (p.finish name title decoded).value =
      match decoded with
      | .ok (some raster) => (p.renderAll raster title).value
      | _ => .none := by
  cases decoded with
  | error e => rfl
  | ok picture => cases picture <;> rfl

/-- The outcome of a source is that of its picture. -/
theorem outcome_derive (resource : Resource) :
    (p.derive resource).value.outcome =
      match p.picture? resource with
      | some raster => (p.renderAll raster resource.title).value
      | none => .none := by
  simp only [derive, Journal.value_bind, Traced.value_ofLogged]
  -- The picture can be missing at the gate, in the stream and in the decoder, in this order.
  cases hg : (gate p.settings.rendering.maxSourceMb (some resource)).value with
  | error rejection => simp [picture?, hg, Except.toOption]
  | ok _ =>
    simp only [Journal.value_bind, Journal.value_pure, value_finish, value_decodeStream]
    cases hc : resource.stream.contents with
    | error reason => simp [picture?, hg, hc, Except.toOption]
    | ok content =>
      have hd : (p.decode (.ofBytes content)).value = (p.decoder (.ofBytes content)).value := rfl
      simp only [hd]
      cases hp : (p.decoder (.ofBytes content)).value with
      | error e => simp [picture?, hg, hc, hp, Except.toOption]
      | ok picture => cases picture <;> simp [picture?, hg, hc, hp, Except.toOption]

/-- A source when the pipeline is done with it: it is read to its end if it passed the gate. -/
def used (resource : Resource) : Resource :=
  match (gate p.settings.rendering.maxSourceMb (some resource)).value with
  | .ok () => resource.drained
  | .error _ => resource

theorem resource_derive (resource : Resource) :
    (p.derive resource).value.resource = p.used resource := by
  simp only [derive, used, Journal.value_bind, Traced.value_ofLogged]
  cases (gate p.settings.rendering.maxSourceMb (some resource)).value <;> rfl

theorem resource_deriveItem (item : Item) :
    (p.deriveItem item).value.2 = item.resource.map p.used := by
  cases hr : item.resource with
  | none => simp [deriveItem, hr]
  | some resource => simp [deriveItem, hr, resource_derive]

/-- The title after which an item's renditions are named. -/
def sourceTitle (item : Item) : String :=
  (item.resource.map Resource.title).getD ""

/-- The renditions of an item are the files of its stages. -/
theorem renditions_deriveItem (item : Item) :
    (p.deriveItem item).value.1.renditions =
      Role.all.filterMap fun role =>
        (p.file? item role).map (Rendition.make role (sourceTitle item)) := by
  cases hr : item.resource with
  | none => simp [deriveItem, file?, hr, Outcome.none]
  | some resource =>
    have hout : (p.deriveItem item).value.1 = (p.derive resource).value.outcome := by
      simp [deriveItem, hr]
    rw [hout, outcome_derive]
    cases hp : p.picture? resource with
    | none => simp [file?, hr, hp, Outcome.none]
    | some raster =>
      simp only [value_renderAll, stages, List.filterMap_filter]
      apply List.filterMap_congr
      intro role _
      -- A stage that is not enabled has no file and is not asked for one.
      by_cases he : p.enabled role = true
      · cases ha : p.answer raster role <;>
          simp [file?, made?, sourceTitle, hr, hp, he, ha, Except.toOption]
      · simp [file?, hr, he]

/-! ## §2 Thumbnails and stored renditions -/

/-- The renditions of an item that become resources. -/
def storedRenditions (item : Item) : List Rendition :=
  [Role.overview, .original].filterMap fun role =>
    (p.file? item role).map (Rendition.make role (sourceTitle item))

/-- No thumbnail is stored as a resource. -/
theorem role_of_storedRendition {item : Item} {r : Rendition}
    (h : r ∈ p.storedRenditions item) : r.role ≠ .thumbnail := by
  obtain ⟨role, hrole, hr⟩ := List.mem_filterMap.1 h
  obtain ⟨content, -, rfl⟩ := Option.map_eq_some_iff.1 hr
  show role ≠ .thumbnail
  rintro rfl
  exact absurd hrole (by decide)

/-- The thumbnail comes before the renditions that are stored. -/
theorem renditions_eq_append (item : Item) :
    (p.deriveItem item).value.1.renditions =
      ((p.file? item .thumbnail).map (Rendition.make .thumbnail (sourceTitle item))).toList ++
        p.storedRenditions item := by
  rw [renditions_deriveItem, Role.all, List.filterMap_cons]
  cases p.file? item .thumbnail <;> rfl

private theorem thumbnails_renditions (item : Item) :
    (p.deriveItem item).value.1.renditions.filterMap Rendition.thumbnail? =
      ((p.file? item .thumbnail).filter (· ≠ [])).toList := by
  -- Only the thumbnail stage makes a thumbnail, so only its file is left.
  have hstored : (p.storedRenditions item).filterMap Rendition.thumbnail? = [] := by
    rw [List.filterMap_eq_nil_iff]
    intro r hr
    exact if_neg fun h => p.role_of_storedRendition hr h.1
  rw [renditions_eq_append, List.filterMap_append, hstored, List.append_nil]
  cases p.file? item .thumbnail with
  | none => rfl
  | some content => cases content <;> rfl

private theorem stored_renditions (item : Item) :
    (p.deriveItem item).value.1.renditions.filter Rendition.isStored =
      p.storedRenditions item := by
  have hstored : (p.storedRenditions item).filter Rendition.isStored =
      p.storedRenditions item := by
    rw [List.filter_eq_self]
    intro r hr
    exact decide_eq_true (p.role_of_storedRendition hr)
  rw [renditions_eq_append, List.filter_append, hstored]
  cases p.file? item .thumbnail <;> rfl

/-! ## §3 The item and what is derived from it -/

/-- The URIs of the overview and of the original, as far as these have files. -/
def newUris (item : Item) : List String :=
  (if (p.file? item .overview).isSome then ["content:" ++ item.record.id ++ "#overview"]
    else []) ++
  if (p.file? item .original).isSome then ["content:" ++ item.record.id ++ "#original"] else []

/-- An item derived from another one, for one of the URIs in the final record: a resource of
    the same record with a stage's file, under the part of the URI after the identifier. -/
structure IsDerived (item : Item) (final : Record) (uri : String) (d : Item) : Prop where
  action : d.action = item.action
  record : d.record = final
  resource : ∃ role content, role ≠ .thumbnail ∧ p.file? item role = some content ∧
    uri = "content:" ++ item.record.id ++ "#" ++ role.qualifier ∧
    d.resource = some
      { recordId := item.record.id
        title := FileName.derive (sourceTitle item) role.qualifier role.extension
        name := FileName.derive (sourceTitle item) role.qualifier role.extension
        mime := role.mime
        size := UInt64.ofNat content.length
        qualifier := some role.qualifier
        stream := .ofBytes content }

/-- What an item becomes: the item with its record in the final state, and derived items. -/
structure Entered (item first : Item) (derived : List Item) : Prop where
  action : first.action = item.action
  resource : first.resource = item.resource.map p.used
  id : first.record.id = item.record.id
  title : first.record.title = item.record.title
  other : ∀ name, name ≠ thumbnailName → name ≠ derivedName →
    first.record.attribute? name = item.record.attribute? name
  thumbnail : first.record.attribute? thumbnailName =
    match p.file? item .thumbnail with
    | some (c :: cs) => some (.single thumbnailName (.binary (c :: cs)))
    | _ => item.record.attribute? thumbnailName
  uris : first.record.values? derivedName =
    Record.appendTexts (item.record.values? derivedName) (p.newUris item)
  derived : List.Forall₂ (p.IsDerived item first.record) (p.newUris item) derived

private theorem newUris_eq (item : Item) :
    p.newUris item =
      (p.storedRenditions item).map fun r => derivedUri item.record.id r.role.qualifier := by
  cases ho : p.file? item .overview <;> cases hl : p.file? item .original <;>
    simp [newUris, storedRenditions, Rendition.make, derivedUri, Role.qualifier, ho, hl,
      String.append_assoc]

private theorem isDerived_of_mem {item : Item} {r : Rendition} (final : Record)
    (h : r ∈ p.storedRenditions item) :
    p.IsDerived item final (derivedUri item.record.id r.role.qualifier)
      ⟨item.action, some (.ofRendition item.record.id r), final⟩ := by
  have hne := p.role_of_storedRendition h
  obtain ⟨role, -, hr⟩ := List.mem_filterMap.1 h
  obtain ⟨content, hfile, rfl⟩ := Option.map_eq_some_iff.1 hr
  exact ⟨rfl, rfl, role, content, hne, hfile, rfl, rfl⟩

/-- What comes first, and what comes after it. -/
theorem entered_process (item : Item) :
    p.Entered item (p.process item).value.item (p.process item).value.derived := by
  let stored := (Stored.addAll ⟨item.record, []⟩ (p.deriveItem item).value.1.renditions).value
  have hrecord : (p.process item).value.item.record = stored.record := rfl
  have hderived : (p.process item).value.derived =
      stored.resources.map fun r => ⟨item.action, some r, stored.record⟩ := rfl
  -- Every field is a fact about adding the renditions, whatever the record held before.
  constructor
  · rfl
  · exact p.resource_deriveItem item
  · rw [hrecord, Stored.id_addAll]
  · rw [hrecord, Stored.title_addAll]
  · intro name ht hd
    rw [hrecord, Stored.other_addAll _ _ ht.symm hd.symm]
  · rw [hrecord, Stored.thumbnail_addAll, thumbnails_renditions]
    cases p.file? item .thumbnail with
    | none => rfl
    | some content => cases content <;> rfl
  · rw [hrecord, Stored.values_addAll, stored_renditions, newUris_eq]
  -- The URIs and the derived items both list the stored renditions, so they match one by one.
  · rw [hderived, hrecord, Stored.resources_addAll, stored_renditions, newUris_eq,
      List.nil_append, List.map_map, List.forall₂_map_left_iff, List.forall₂_map_right_iff,
      List.forall₂_same]
    intro r hr
    exact p.isDerived_of_mem stored.record hr

/-- **Items are processed exactly.** Whatever the collaborators answer and whatever the record
    held before, the first item has the thumbnail if that stage gave a file that is not empty,
    its URIs are the earlier values and then one for each further file, everything else in it is
    as it was, and the other items stand for the new URIs one by one, with the final record. -/
theorem process_entered (item : Item) :
    ∃ first derived, (p.process item).value.toList = first :: derived ∧
      p.Entered item first derived :=
  ⟨_, _, rfl, p.entered_process item⟩

end Pipeline

end Quicklook
