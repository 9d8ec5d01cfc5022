import Quicklook.Catalog.Record
import Quicklook.Pipeline.Basic

/-!
# Items and batches

An item is a record that is created or updated, with the source stored for it. Processing
an item enters its renditions into the record: the thumbnail as an attribute, the others by
their URIs. These others also become items of their own, with the same record. Processing a
batch gives the items in their order, and after them what was derived, in the same order.
-/

namespace Quicklook

/-! ## §1 Items -/

/-- Whether a record is new. -/
inductive Action where
  | create
  | update (previous : Record)
deriving DecidableEq

/-- A record and the resource stored for it. -/
structure Item where
  action : Action
  resource : Option Resource
  record : Record
deriving DecidableEq

/-! ## §2 Storing renditions -/

/-- A record with renditions entered, and the resources made of them. -/
structure Stored where
  record : Record
  /-- The resources, in the order of the renditions. -/
  resources : List Resource

/-- Enters a rendition into the record. An empty thumbnail is left out; a thumbnail is not a
    resource of its own. -/
def Stored.add (s : Stored) (r : Rendition) : Traced Stored :=
  match r.role with
  | .thumbnail =>
    pure (if r.isEmpty then s else { s with record := s.record.withThumbnail r.content })
  | .overview | .original => do
    let id := s.record.id
    Traced.report (.renditionStored r.role.qualifier id)
    pure
      { record := s.record.register (Record.derivedUri id r.role.qualifier)
        resources := s.resources ++ [.ofRendition id r] }

/-- Enters renditions one after another. -/
def Stored.addAll (s : Stored) : List Rendition → Traced Stored
  | [] => pure s
  | r :: rs => do
    let s ← s.add r
    s.addAll rs

/-! ## §3 Processing -/

/-- An item after processing, and the items derived from it. -/
structure Processed where
  item : Item
  /-- The derived items, in the order of their roles. -/
  derived : List Item

/-- The item, and after it the derived items. -/
def Processed.toList (r : Processed) : List Item :=
  r.item :: r.derived

/-! ## §4 Batches -/

/-- The answer to a batch while it is put together. -/
structure Gathered where
  originals : List Item
  derived : List Item

/-- Adds what came of one item: the first in the list is the item itself. -/
def Gathered.add (g : Gathered) (group : List Item) : Gathered :=
  ⟨g.originals ++ group.take 1, g.derived ++ group.drop 1⟩

/-- The first items of all lists in order, and after them the others in order. -/
def regroup (groups : List (List Item)) : List Item :=
  let g := groups.foldl Gathered.add ⟨[], []⟩
  g.originals ++ g.derived

/-! ## §5 Pipelines on items -/

namespace Pipeline

variable (p : Pipeline)

/-- The outcome of an item's resource, and the resource as far as it was read. -/
def deriveItem (item : Item) : Traced (Outcome × Option Resource) :=
  match item.resource with
  | some resource => do
    let d ← p.derive resource
    pure (d.outcome, some d.resource)
  | none => do
    Traced.report (.recordSkipped item.record.id Rejection.missing.reason)
    pure (.none, none)

/-- Processes an item. All derived items have the record in its final state. -/
def process (item : Item) : Traced Processed := do
  let (outcome, resource) ← p.deriveItem item
  -- Only when all renditions are entered is the record in its final state.
  let stored ← Stored.addAll ⟨item.record, []⟩ outcome.renditions
  pure
    { item := { item with resource, record := stored.record }
      derived := stored.resources.map fun r => ⟨item.action, some r, stored.record⟩ }

/-- Processes items one after another. -/
def processEach (p : Pipeline) : List Item → Traced (List Processed)
  | [] => pure []
  | item :: items => do
    let r ← p.process item
    let rs ← p.processEach items
    pure (r :: rs)

/-- Processes a batch: the items in their order, and after them all derived items. -/
def processBatch (items : List Item) : Traced (List Item) := do
  let rs ← p.processEach items
  pure (regroup (rs.map Processed.toList))

end Pipeline

end Quicklook
