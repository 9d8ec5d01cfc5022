import Quicklook.Proofs.Pipeline.Batch
import Quicklook.Proofs.Pipeline.Pictureless

/-!
# Derived items are a fixed point

The source of a derived item has the MIME type of its role, and no role has the type that the
gate asks for. So derived items are turned away by every pipeline, whatever its settings, its
decoder and its encoder, and a batch of them comes out as it went in.

* `isNitf_mime`, `gate_mime`: files made in a role do not pass the gate
* `rests_of_rejected`: an item whose source is turned away comes out as it went in
* `value_processBatch_of_rests`: so does a batch of such items
* `processBatch_derived`: what one pipeline derives is left alone by all others
-/

namespace Quicklook

/-! ## §1 Types of renditions -/

/-- No role has the type that the gate asks for. -/
theorem isNitf_mime (role : Role) : (isNitf role.mime).value = false := by
  cases role <;> decide

/-- A source with the type of a role is turned away, whatever its size. -/
theorem gate_mime {resource : Resource} {role : Role} (h : resource.mime = role.mime)
    (limit : UInt64) : (gate limit (some resource)).value = .error (.notNitf role.mime) := by
  have hmime : ¬ (isNitf resource.mime).value = true := by
    rw [h, isNitf_mime]
    decide
  rw [value_gate, if_neg hmime, h]

namespace Pipeline

/-! ## §2 Items at rest -/

/-- Processing gives back the item and nothing else, and calls nobody. -/
structure Rests (q : Pipeline) (item : Item) : Prop where
  value : (q.process item).value = ⟨item, []⟩
  calls : (q.process item).CallsNobody

variable (p q : Pipeline) {item : Item}

/-- An item whose source is turned away comes out as it went in, and nobody is called for it. -/
theorem rests_of_rejected {resource : Resource} {rejection : Rejection}
    (h : item.resource = some resource)
    (hgate : (gate q.settings.rendering.maxSourceMb (some resource)).value = .error rejection) :
    q.Rests item := by
  have hnothing : q.YieldsNothing item := .rejected h hgate
  -- A source that is turned away is not read, and so it comes back unused.
  refine ⟨?_, q.requests_process_of_yieldsNothing hnothing, ?_⟩
  · rw [q.value_process_of_yieldsNothing hnothing, h, Option.map_some, q.used_of_rejected hgate,
      ← h]
  · rw [decodings_process, h]
    exact (q.callsNobody_derive_of_rejected hgate).decodings

/-- The item has a source with the type of some role. -/
def IsRendition (d : Item) : Prop :=
  ∃ (resource : Resource) (role : Role), d.resource = some resource ∧ resource.mime = role.mime

/-- The source of a derived item is a file made in some role. -/
theorem isRendition_of_mem_derivedFrom {d : Item} (h : d ∈ p.derivedFrom item) :
    IsRendition d := by
  -- Derived items go with the files that were entered, one by one.
  have hall : List.Forall₂ (fun d uri => IsRendition d ∧
      p.IsDerived item (p.process item).value.item.record uri d) (p.derivedFrom item)
        (p.newUris item) := by
    refine (p.entered_process item).derived.flip.imp fun d uri hd => ⟨?_, hd⟩
    -- The resource of a derived item is named after the role that it was made in.
    obtain ⟨role, content, -, -, -, hresource⟩ := hd.resource
    exact ⟨_, role, hresource, rfl⟩
  exact ((List.forall₂_and_left _ _).1 hall).1 d h

/-- What one pipeline derives is at rest in any other. -/
theorem rests_of_mem_derivedFrom {d : Item} (h : d ∈ p.derivedFrom item) : q.Rests d := by
  obtain ⟨resource, role, hr, hmime⟩ := p.isRendition_of_mem_derivedFrom h
  exact q.rests_of_rejected hr (gate_mime hmime _)

/-! ## §3 Batches at rest -/

/-- Items at rest are taken through a pipeline without a call. -/
theorem callsNobody_processEach {items : List Item} (h : ∀ item ∈ items, q.Rests item) :
    (q.processEach items).CallsNobody := by
  -- The calls of a list are those for its first item and then those for the rest.
  induction items with
  | nil => exact ⟨rfl, rfl⟩
  | cons item items ih =>
    have hitems := ih fun i hi => h i (List.mem_cons_of_mem _ hi)
    exact (h item List.mem_cons_self).calls.bind (hitems.bind ⟨rfl, rfl⟩)

theorem callsNobody_processBatch {items : List Item} (h : ∀ item ∈ items, q.Rests item) :
    (q.processBatch items).CallsNobody :=
  (q.callsNobody_processEach h).bind ⟨rfl, rfl⟩

theorem map_original_of_rests {items : List Item} (h : ∀ item ∈ items, q.Rests item) :
    items.map q.original = items := by
  refine (List.map_congr_left fun item hi => ?_).trans (List.map_id items)
  rw [original, (h item hi).value, id]

theorem flatMap_derivedFrom_of_rests {items : List Item} (h : ∀ item ∈ items, q.Rests item) :
    items.flatMap q.derivedFrom = [] := by
  rw [List.flatMap_eq_nil_iff]
  intro item hi
  rw [derivedFrom, (h item hi).value]

/-- A batch of items at rest comes out as it went in. -/
theorem value_processBatch_of_rests {items : List Item} (h : ∀ item ∈ items, q.Rests item) :
    (q.processBatch items).value = items := by
  rw [value_processBatch, q.map_original_of_rests h, q.flatMap_derivedFrom_of_rests h,
    List.append_nil]

/-! ## §4 The derived part of an answer -/

/-- What is derived stands behind as many items as there were. -/
theorem drop_processBatch (items : List Item) :
    (p.processBatch items).value.drop items.length = items.flatMap p.derivedFrom := by
  rw [value_processBatch]
  exact List.drop_left' (List.length_map _)

/-- **Derived items are a fixed point.** Whatever batch one pipeline has processed, any other
    pipeline gives back the derived part of the answer as it is, item by item or as a batch, by
    one worker or by several, and calls neither its decoder nor its encoder. So when a whole
    answer is processed again, everything that is new is derived from the items of the batch. -/
theorem processBatch_derived (items : List Item) :
    let derived := (p.processBatch items).value.drop items.length
    (q.processBatch derived).value = derived ∧
    (q.processBatch derived).requests = [] ∧ (q.processBatch derived).decodings = [] ∧
    (∀ d ∈ derived, (q.process d).value = ⟨d, []⟩ ∧ (q.process d).requests = [] ∧
      (q.process d).decodings = []) ∧
    (∀ workers moves pool out, q.run workers (.start derived) moves = some pool →
      pool.answer? = some out → out = derived) ∧
    (q.processBatch (p.processBatch items).value).value =
      (items.map p.original).map q.original ++ derived ++
        (items.map p.original).flatMap q.derivedFrom := by
  intro derived
  have hderived : derived = items.flatMap p.derivedFrom := p.drop_processBatch items
  have hrests : ∀ d ∈ derived, q.Rests d := by
    -- Each of them is derived from some item of the batch.
    intro d hd
    rw [hderived] at hd
    obtain ⟨item, -, hmem⟩ := List.mem_flatMap.1 hd
    exact p.rests_of_mem_derivedFrom q hmem
  -- Everything else follows from this: a batch at rest is answered by itself.
  have hcalls := q.callsNobody_processBatch hrests
  have hvalue := q.value_processBatch_of_rests hrests
  refine ⟨hvalue, hcalls.requests, hcalls.decodings, ?_, ?_, ?_⟩
  · intro d hd
    exact ⟨(hrests d hd).value, (hrests d hd).calls.requests, (hrests d hd).calls.decodings⟩
  -- However the moves fell, the answer of a pool is that of the batch.
  · intro workers moves pool out hrun hout
    rw [answer_eq_of_follows (follows_run (q.follows_start derived) hrun) hout, hvalue]
  · rw [p.value_processBatch items, ← hderived, value_processBatch, List.map_append,
      List.flatMap_append, q.map_original_of_rests hrests, q.flatMap_derivedFrom_of_rests hrests,
      List.append_nil]

/-- An original that one pipeline has made is left alone by another one that makes more. -/
theorem original_rests_in_other_pipeline :
    let raster : Raster := ⟨1, 1, 3, [10, 20, 30], by decide, by decide, by decide⟩
    let p : Pipeline := ⟨⟨⟨false, true, 5, 7⟩, .default⟩, fun _ => pure (.ok (some raster)),
      fun _ _ => .ok [1, 2], fun _ _ => .ok [3]⟩
    let q : Pipeline := ⟨⟨⟨true, true, 5, 90⟩, .default⟩, fun _ => pure (.ok (some raster)),
      fun _ _ => .ok [4], fun _ _ => .ok [5]⟩
    let a : Item := ⟨.create, some (.ofBytes "a" "t" "image/nitf" [1]), .empty "a" "t"⟩
    let derived := (p.processBatch [a]).value.drop 1
    derived.length = 1 ∧
      (∃ d ∈ derived, (q.process d).value = ⟨d, []⟩ ∧ (q.process d).requests = []) ∧
      ∃ pool out, q.run 1 (.start derived) [.take 0 0, .finish 0] = some pool ∧
        pool.answer? = some out ∧ out = derived := by
  intro raster p q a derived
  obtain ⟨-, -, -, hitems, hruns, -⟩ := processBatch_derived p q [a]
  obtain ⟨d, hd⟩ : ∃ d, d ∈ derived := ⟨_, List.mem_cons_self⟩
  exact ⟨rfl, ⟨d, hd, (hitems d hd).1, (hitems d hd).2.1⟩, _, _, rfl, rfl,
    hruns 1 [.take 0 0, .finish 0] _ _ rfl rfl⟩

end Pipeline

end Quicklook
