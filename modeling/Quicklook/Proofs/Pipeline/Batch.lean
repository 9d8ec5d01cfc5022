import Mathlib.Data.List.Nodup
import Mathlib.Data.List.OfFn
import Mathlib.Algebra.BigOperators.Group.List.Basic
import Mathlib.Algebra.Ring.Nat
import Quicklook.Pipeline.Pool
import Quicklook.Proofs.Pipeline.Item

/-!
# Batches are put together in order

An item's slot holds the item, waiting or taken, or what came of this very item, whatever
moves were made. So a pool whose slots are all filled has one answer, and it is that of
processing the items one after another.

* `value_processBatch`: the answer, as the items in order and the derived items in order
* `step_cases`: all that a move can do
* `Follows`: the invariant; `follows_step` for a move, `follows_run` for a list of moves
* `remaining_run`: every move brings the end nearer by one
* `exists_run_answer`: every pool that can be reached can be brought to its end
* `processBatch_ordered`: no item is lost, doubled, moved or mixed up
-/

namespace Quicklook

open Record (derivedName)

/-! ## §1 Grouping -/

namespace Gathered

/-- Each group adds its first item to the one list and the others to the other. -/
theorem foldl_add (g : Gathered) (groups : List (List Item)) :
    groups.foldl add g =
      ⟨g.originals ++ groups.flatMap (·.take 1), g.derived ++ groups.flatMap (·.drop 1)⟩ := by
  -- The lists grow from group to group, so the claim is about any lists so far.
  induction groups generalizing g with
  | nil => simp
  | cons group groups ih =>
    rw [List.foldl_cons, ih, add, List.flatMap_cons, List.flatMap_cons, List.append_assoc,
      List.append_assoc]

end Gathered

theorem regroup_eq_append (groups : List (List Item)) :
    regroup groups = groups.flatMap (·.take 1) ++ groups.flatMap (·.drop 1) := by
  rw [regroup, Gathered.foldl_add]
  rfl

/-- What came of items one by one, each item before what is derived from it, is regrouped to
    all items before all that is derived. -/
theorem regroup_map_toList {α : Type} (f : α → Processed) (xs : List α) :
    regroup (xs.map fun x => (f x).toList) =
      (xs.map fun x => (f x).item) ++ xs.flatMap fun x => (f x).derived := by
  have hfirst : xs.flatMap (fun x => ((f x).toList).take 1) = xs.map fun x => (f x).item := by
    rw [List.map_eq_flatMap]
    rfl
  rw [regroup_eq_append, List.flatMap_map, List.flatMap_map, hfirst]
  rfl

namespace Pipeline

variable (p : Pipeline)

/-- The item that comes first when an item is processed. -/
def original (item : Item) : Item :=
  (p.process item).value.item

/-- The items that come after it. -/
def derivedFrom (item : Item) : List Item :=
  (p.process item).value.derived

theorem value_processEach (items : List Item) :
    (p.processEach items).value = items.map fun item => (p.process item).value := by
  induction items with
  | nil => rfl
  | cons item items ih =>
    simp only [processEach, Journal.value_bind, Journal.value_pure, ih, List.map_cons]

/-- The answer to a batch. -/
theorem value_processBatch (items : List Item) :
    (p.processBatch items).value = items.map p.original ++ items.flatMap p.derivedFrom := by
  simp only [processBatch, Journal.value_bind, Journal.value_pure, value_processEach,
    List.map_map]
  exact regroup_map_toList (fun item => (p.process item).value) items

/-- A record has as many new URIs as there are items derived from it. -/
theorem uriCount_original (item : Item) :
    (p.original item).record.uriCount = item.record.uriCount + (p.derivedFrom item).length := by
  have h := p.entered_process item
  have huris : (p.original item).record.values? derivedName = _ := h.uris
  have hlength : (p.newUris item).length = (p.derivedFrom item).length := h.derived.length_eq
  rw [Record.uriCount, huris, Record.length_appendTexts, hlength]
  rfl

/-! ## §2 One move -/

/-- A list with one place changed is the same before and behind that place. -/
private theorem eq_and_set_eq {α : Type} {xs : List α} {index : Nat} {x : α} (new : α)
    (h : xs[index]? = some x) :
    xs = xs.take index ++ x :: xs.drop (index + 1) ∧
      xs.set index new = xs.take index ++ new :: xs.drop (index + 1) := by
  obtain ⟨hlt, rfl⟩ := List.getElem?_eq_some_iff.1 h
  constructor
  · rw [List.getElem_cons_drop, List.take_append_drop]
  · exact List.set_eq_take_append_cons_drop.trans (if_pos hlt)

variable {p} {workers : Nat} {items : List Item} {pool pool' : Pool}

/-- All that a move can do: an idle worker takes a waiting item, or an item that was taken is
    finished, and all other slots stay as they are. -/
theorem step_cases {move : Move} (h : p.step workers pool move = some pool') :
    ∃ before after,
      (∃ worker item, worker < workers ∧ worker ∉ pool.busy ∧
        pool = before ++ .waiting item :: after ∧
        pool' = before ++ .taken worker item :: after) ∨
      (∃ worker item, pool = before ++ .taken worker item :: after ∧
        pool' = before ++ .filled (p.process item).value.toList :: after) := by
  -- A move that is not possible gives no pool, which leaves one case for each kind.
  cases move with
  | take worker index =>
    simp only [step] at h
    split at h
    case h_1 item hslot =>
      split at h
      case isTrue hidle =>
        obtain ⟨hpool, hset⟩ := eq_and_set_eq (.taken worker item) hslot
        exact ⟨_, _, .inl ⟨worker, item, hidle.1, hidle.2, hpool,
          (Option.some.inj h).symm.trans hset⟩⟩
      case isFalse => cases h
    case h_2 => cases h
  | finish index =>
    simp only [step] at h
    split at h
    case h_1 worker item hslot =>
      obtain ⟨hpool, hset⟩ := eq_and_set_eq (.filled (p.process item).value.toList) hslot
      exact ⟨_, _, .inr ⟨worker, item, hpool, (Option.some.inj h).symm.trans hset⟩⟩
    case h_2 => cases h

/-- No worker has two items, and only the given workers have any. -/
def Staffed (workers : Nat) (pool : Pool) : Prop :=
  pool.busy.Nodup ∧ ∀ worker ∈ pool.busy, worker < workers

/-- A worker takes an item only if it has none, and gives it back when it is done. -/
theorem staffed_step {move : Move} (hs : Staffed workers pool)
    (h : p.step workers pool move = some pool') : Staffed workers pool' := by
  obtain ⟨before, after, hcase⟩ := step_cases h
  rcases hcase with ⟨worker, item, hlt, hidle, rfl, rfl⟩ | ⟨worker, item, rfl, rfl⟩
  -- The worker that takes an item was idle, so it is new among the busy ones.
  · simp only [Staffed, Pool.busy_append, Pool.busy_waiting, Pool.busy_taken] at hs hidle ⊢
    refine ⟨List.nodup_middle.2 (List.nodup_cons.2 ⟨hidle, hs.1⟩), fun w hw => ?_⟩
    rcases List.mem_cons.1 (List.perm_middle.mem_iff.1 hw) with rfl | hw
    · exact hlt
    · exact hs.2 w hw
  -- A finished item frees its worker, and no other one is added.
  · simp only [Staffed, Pool.busy_append, Pool.busy_taken, Pool.busy_filled] at hs ⊢
    refine ⟨(List.nodup_cons.1 (List.nodup_middle.1 hs.1)).2, fun w hw => hs.2 w ?_⟩
    exact List.perm_middle.mem_iff.2 (List.mem_cons_of_mem _ hw)

/-- The slot of an item, whatever was done so far. -/
def SlotOf (p : Pipeline) (item : Item) : Slot → Prop
  | .waiting i => i = item
  | .taken _ i => i = item
  | .filled group => group = (p.process item).value.toList

/-- The slots of a pool are those of the items, place by place. -/
def Follows (p : Pipeline) (items : List Item) (pool : Pool) : Prop :=
  List.Forall₂ p.SlotOf items pool

theorem follows_start (p : Pipeline) (items : List Item) : p.Follows items (.start items) := by
  rw [Follows, Pool.start, List.forall₂_map_right_iff, List.forall₂_same]
  intro item _
  rfl

/-- A relation is kept if at one place it goes over to another element. -/
private theorem forall₂_replace {α β : Type} {R : α → β → Prop} {xs : List α} {b b' : β}
    {before after : List β} (h : List.Forall₂ R xs (before ++ b :: after))
    (hb : ∀ a, R a b → R a b') : List.Forall₂ R xs (before ++ b' :: after) := by
  induction before generalizing xs with
  | nil =>
    cases h with
    | cons hab hrest => exact .cons (hb _ hab) hrest
  | cons c cs ih =>
    cases h with
    | cons hac hrest => exact .cons hac (ih hrest)

/-- A move leaves every slot with its item. -/
theorem follows_step {move : Move} (hf : p.Follows items pool)
    (h : p.step workers pool move = some pool') : p.Follows items pool' := by
  obtain ⟨before, after, hcase⟩ := step_cases h
  rcases hcase with ⟨worker, item, -, -, rfl, rfl⟩ | ⟨worker, item, rfl, rfl⟩
  · exact forall₂_replace hf fun _ hitem => hitem
  -- The group that fills the slot is made of the item that was taken.
  · refine forall₂_replace hf fun i hitem => ?_
    obtain rfl : item = i := hitem
    rfl

end Pipeline

/-! ## §3 The way to the end -/

/-- How many moves it takes to fill a slot. -/
def Slot.remaining : Slot → Nat
  | .waiting _ => 2
  | .taken _ _ => 1
  | .filled _ => 0

/-- How many moves it takes to fill all slots. -/
def Pool.remaining (pool : Pool) : Nat :=
  (pool.map Slot.remaining).sum

theorem Pool.remaining_start (items : List Item) :
    (Pool.start items).remaining = 2 * items.length := by
  induction items with
  | nil => rfl
  | cons item items ih =>
    have hcons : (Pool.start (item :: items)).remaining = 2 + (Pool.start items).remaining := rfl
    rw [hcons, ih, List.length_cons]
    omega

theorem Pool.exists_mem_of_remaining {pool : Pool} (h : pool.remaining ≠ 0) :
    ∃ slot ∈ pool, slot.remaining ≠ 0 := by
  by_contra hall
  refine h (List.sum_eq_zero fun n hn => ?_)
  obtain ⟨slot, hslot, rfl⟩ := List.mem_map.1 hn
  by_contra hne
  exact hall ⟨slot, hslot, hne⟩

namespace Pipeline

variable {p : Pipeline} {workers : Nat} {items : List Item} {pool pool' : Pool}

/-- A move brings the end nearer by one. -/
theorem remaining_step {move : Move} (h : p.step workers pool move = some pool') :
    pool.remaining = pool'.remaining + 1 := by
  obtain ⟨before, after, hcase⟩ := step_cases h
  -- A waiting item is two moves from its end, a taken one is one.
  rcases hcase with ⟨worker, item, -, -, rfl, rfl⟩ | ⟨worker, item, rfl, rfl⟩ <;>
    simp only [Pool.remaining, Slot.remaining, List.map_append, List.map_cons, List.sum_append,
      List.sum_cons] <;>
    omega

private theorem exists_finish {worker : Nat} {item : Item}
    (h : Slot.taken worker item ∈ pool) :
    ∃ move pool', p.step workers pool move = some pool' := by
  obtain ⟨index, hindex⟩ := List.mem_iff_getElem?.1 h
  refine ⟨.finish index, pool.set index (.filled (p.process item).value.toList), ?_⟩
  simp only [step, hindex]

/-- A waiting item can be taken by the first worker, if that is idle. -/
private theorem exists_take (hw : 0 < workers) (hidle : 0 ∉ pool.busy) {item : Item}
    (h : Slot.waiting item ∈ pool) :
    ∃ move pool', p.step workers pool move = some pool' := by
  obtain ⟨index, hindex⟩ := List.mem_iff_getElem?.1 h
  refine ⟨.take 0 index, pool.set index (.taken 0 item), ?_⟩
  simp only [step, hindex]
  exact if_pos ⟨hw, hidle⟩

/-- While the end is not reached, some move is possible: who has an item can finish it, and
    the first worker can take one if it has none. -/
theorem exists_step (hw : 0 < workers) (h : pool.remaining ≠ 0) :
    ∃ move pool', p.step workers pool move = some pool' := by
  -- The first worker is enough: it has an item to finish or can take one.
  by_cases hbusy : 0 ∈ pool.busy
  · obtain ⟨slot, hslot, hworker⟩ := List.mem_filterMap.1 hbusy
    cases slot with
    | taken worker item => exact exists_finish hslot
    | waiting item => cases hworker
    | filled group => cases hworker
  · obtain ⟨slot, hslot, hleft⟩ := Pool.exists_mem_of_remaining h
    cases slot with
    | taken worker item => exact exists_finish hslot
    | filled group => exact absurd rfl hleft
    | waiting item => exact exists_take hw hbusy hslot

/-! ## §4 Lists of moves -/

theorem run_cons {move : Move} {moves : List Move} :
    p.run workers pool (move :: moves) = some pool' ↔
      ∃ next, p.step workers pool move = some next ∧ p.run workers next moves = some pool' := by
  rw [run]
  exact Option.bind_eq_some_iff

/-- What every move preserves is preserved by all of them. -/
theorem run_invariant {Inv : Pool → Prop}
    (hstep : ∀ {pool pool' : Pool} {move : Move}, Inv pool →
      p.step workers pool move = some pool' → Inv pool')
    {moves : List Move} (hinv : Inv pool) (h : p.run workers pool moves = some pool') :
    Inv pool' := by
  -- By induction on the moves: the rest of them start where the first one ends.
  induction moves generalizing pool with
  | nil =>
    obtain rfl : pool = pool' := Option.some.inj h
    exact hinv
  | cons move moves ih =>
    obtain ⟨next, hnext, hrun⟩ := run_cons.1 h
    exact ih (hstep hinv hnext) hrun

/-- Whatever is done, every slot stays with its item. -/
theorem follows_run {moves : List Move} (hf : p.Follows items pool)
    (h : p.run workers pool moves = some pool') : p.Follows items pool' :=
  run_invariant follows_step hf h

/-- Never more items are worked on than there are workers. -/
theorem length_busy_run {moves : List Move}
    (h : p.run workers (.start items) moves = some pool) : pool.busy.length ≤ workers := by
  have hs : Staffed workers (.start items) := by
    simp [Staffed]
  obtain ⟨hnodup, hlt⟩ := run_invariant staffed_step hs h
  -- Busy workers are different numbers below the bound.
  have hsub : pool.busy ⊆ List.range workers := fun w hw => List.mem_range.2 (hlt w hw)
  simpa using (List.subperm_of_subset hnodup hsub).length_le

/-- Every move brings the end nearer by one. -/
theorem remaining_run {moves : List Move} (h : p.run workers pool moves = some pool') :
    pool.remaining = pool'.remaining + moves.length := by
  induction moves generalizing pool with
  | nil =>
    obtain rfl : pool = pool' := Option.some.inj h
    rfl
  | cons move moves ih =>
    obtain ⟨next, hstep, hrun⟩ := run_cons.1 h
    rw [remaining_step hstep, ih hrun, List.length_cons]
    rfl

/-- From every pool the end can be reached. -/
theorem exists_run (hw : 0 < workers) (pool : Pool) :
    ∃ moves last, p.run workers pool moves = some last ∧ last.remaining = 0 := by
  -- By induction on the number of moves that are left; any possible move will do.
  induction hn : pool.remaining generalizing pool with
  | zero => exact ⟨[], pool, rfl, hn⟩
  | succ n ih =>
    obtain ⟨move, next, hstep⟩ := exists_step (p := p) hw (by omega : pool.remaining ≠ 0)
    have hnext : next.remaining = n := by
      have := remaining_step hstep
      omega
    obtain ⟨moves, last, hrun, hlast⟩ := ih next hnext
    exact ⟨move :: moves, last, run_cons.2 ⟨next, hstep, hrun⟩, hlast⟩

/-! ## §5 The answer of a pool -/

/-- A filled slot holds what came of its item. -/
theorem groups_of_follows {groups : List (List Item)} (hf : p.Follows items pool)
    (h : pool.mapM Slot.group? = some groups) :
    groups = items.map fun item => (p.process item).value.toList := by
  induction hf generalizing groups with
  | nil => exact (Option.some.inj h).symm
  | @cons item slot items pool hslot _ ih =>
    rw [List.mapM_cons] at h
    obtain ⟨group, hgroup, h⟩ := Option.bind_eq_some_iff.1 h
    obtain ⟨rest, hrest, h⟩ := Option.bind_eq_some_iff.1 h
    obtain rfl : group :: rest = groups := Option.some.inj h
    -- A slot has a group only when it is filled, and then with what came of its item.
    cases slot with
    | filled group' =>
      obtain rfl : group' = group := Option.some.inj hgroup
      rw [ih hrest, List.map_cons, show group' = (p.process item).value.toList from hslot]
    | waiting item' => cases hgroup
    | taken worker item' => cases hgroup

/-- If a pool has an answer, it is that of processing the items one after another. -/
theorem answer_eq_of_follows {out : List Item} (hf : p.Follows items pool)
    (h : pool.answer? = some out) : out = (p.processBatch items).value := by
  obtain ⟨groups, hgroups, rfl⟩ := Option.map_eq_some_iff.1 h
  rw [groups_of_follows hf hgroups, value_processBatch]
  exact regroup_map_toList (fun item => (p.process item).value) items

/-- When no move is left, all slots are filled. -/
theorem exists_answer (h : pool.remaining = 0) : ∃ out, pool.answer? = some out := by
  have hgroups : ∃ groups, pool.mapM Slot.group? = some groups := by
    induction pool with
    | nil => exact ⟨[], rfl⟩
    | cons slot pool ih =>
      have hcons : Pool.remaining (slot :: pool) = slot.remaining + Pool.remaining pool := rfl
      obtain ⟨groups, hgroups⟩ := ih (by omega)
      cases slot with
      | filled group => exact ⟨group :: groups, by rw [List.mapM_cons, hgroups]; rfl⟩
      -- A slot that is not filled would leave a move.
      | waiting item => exact absurd (hcons ▸ h) (by simp [Slot.remaining])
      | taken worker item => exact absurd (hcons ▸ h) (by simp [Slot.remaining])
  obtain ⟨groups, hgroups⟩ := hgroups
  exact ⟨regroup groups, by rw [Pool.answer?, hgroups]; rfl⟩

/-- What was begun in any way can be ended with the one answer there is. -/
theorem exists_run_answer {moves : List Move} (hw : 0 < workers)
    (h : p.run workers (.start items) moves = some pool) :
    ∃ more last, p.run workers pool more = some last ∧
      last.answer? = some (p.processBatch items).value ∧
      moves.length + more.length = 2 * items.length := by
  obtain ⟨more, last, hrun, hlast⟩ := exists_run (p := p) hw pool
  have hfollows : p.Follows items last := follows_run (follows_run (p.follows_start items) h) hrun
  obtain ⟨out, hout⟩ := exists_answer hlast
  refine ⟨more, last, hrun, ?_, ?_⟩
  · rw [hout, answer_eq_of_follows hfollows hout]
  -- Each move was one of those that there were at the start.
  · have hfirst := remaining_run h
    have hsecond := remaining_run hrun
    rw [Pool.remaining_start] at hfirst
    omega

/-! ## §6 Laws of batches -/

variable (p)

/-- All records together have as many new URIs as there are derived items. -/
theorem uriCount_originals (items : List Item) :
    ((items.map p.original).map fun item => item.record.uriCount).sum =
      (items.map fun item => item.record.uriCount).sum + (items.flatMap p.derivedFrom).length := by
  induction items with
  | nil => rfl
  | cons item items ih =>
    -- Each item accounts for its own derived items.
    simp only [List.map_cons, List.sum_cons, List.flatMap_cons, List.length_append,
      uriCount_original, ih]
    omega

/-- The first items of the answer are the given ones at their places. -/
theorem getElem?_processBatch {index : Nat} {item : Item} (h : items[index]? = some item) :
    (p.processBatch items).value[index]? = some (p.original item) := by
  obtain ⟨hlt, -⟩ := List.getElem?_eq_some_iff.1 h
  have hlength : index < (items.map p.original).length := by rwa [List.length_map]
  rw [value_processBatch, List.getElem?_append_left hlength, List.getElem?_map, h, Option.map_some]

/-- **No item of a batch is lost, doubled, moved or mixed up.** Whatever moves are made by
    however many workers, a pool gives no other answer than processing the items one after
    another, and it can always be brought to that answer. This answer has all items in their
    order, with as many new URIs as there are derived items, which come after them in the same
    order. A batch of two parts, a batch in another order and a batch with one item replaced
    are answered by the same parts, in the same order, and with one part replaced. -/
theorem processBatch_ordered (items : List Item) :
    (∀ workers moves pool, p.run workers (.start items) moves = some pool →
      (∀ out, pool.answer? = some out → out = (p.processBatch items).value) ∧
      (0 < workers → ∃ more last, p.run workers pool more = some last ∧
        last.answer? = some (p.processBatch items).value ∧
        moves.length + more.length = 2 * items.length)) ∧
    (p.processBatch items).value = items.map p.original ++ items.flatMap p.derivedFrom ∧
    (∀ (index : Nat) (item : Item), items[index]? = some item →
      (p.processBatch items).value[index]? = some (p.original item) ∧
        p.Entered item (p.original item) (p.derivedFrom item)) ∧
    ((items.map p.original).map fun item => item.record.uriCount).sum =
      (items.map fun item => item.record.uriCount).sum + (items.flatMap p.derivedFrom).length ∧
    (∀ more : List Item, (p.processBatch (items ++ more)).value =
      (items.map p.original ++ more.map p.original) ++
        (items.flatMap p.derivedFrom ++ more.flatMap p.derivedFrom)) ∧
    (∀ σ : Equiv.Perm (Fin items.length),
      (p.processBatch (List.ofFn fun i => items[σ i])).value =
        (List.ofFn fun i => p.original items[σ i]) ++
          (List.ofFn fun i => p.derivedFrom items[σ i]).flatten) ∧
    ∀ (index : Nat) (new : Item), (p.processBatch (items.set index new)).value =
      (items.map p.original).set index (p.original new) ++
        ((items.map p.derivedFrom).set index (p.derivedFrom new)).flatten := by
  refine ⟨?_, p.value_processBatch items, ?_, p.uriCount_originals items, ?_, ?_, ?_⟩
  · intro workers moves pool hrun
    exact ⟨fun out => answer_eq_of_follows (follows_run (p.follows_start items) hrun),
      fun hw => exists_run_answer hw hrun⟩
  · intro index item h
    exact ⟨p.getElem?_processBatch h, p.entered_process item⟩
  · intro more
    rw [value_processBatch, List.map_append, List.flatMap_append]
  · intro σ
    rw [value_processBatch, List.map_ofFn, List.flatMap_def, List.map_ofFn]
    rfl
  · intro index new
    rw [value_processBatch, List.flatMap_def, List.map_set, List.map_set]

/-- Two workers, and the second item is finished before the first: the answer has both in their
    order, and then what was derived from the first. -/
theorem ordered_when_second_item_is_first_to_end :
    let raster : Raster := ⟨1, 1, 3, [10, 20, 30], by decide, by decide, by decide⟩
    let p : Pipeline := ⟨⟨⟨false, true, 5, 7⟩, .default⟩, fun _ => pure (.ok (some raster)),
      fun _ _ => .ok [1, 2], fun _ _ => .ok [3]⟩
    let a : Item := ⟨.create, some (.ofBytes "a" "t" "image/nitf" [1]), .empty "a" "t"⟩
    let b : Item := ⟨.create, none, .empty "b" "u"⟩
    ∃ pool out,
      p.run 2 (.start [a, b]) [.take 0 0, .take 1 1, .finish 1, .finish 0] = some pool ∧
        pool.answer? = some out ∧ out.map (·.record.id) = ["a", "b", "a"] ∧
        out = (p.processBatch [a, b]).value ∧
        ∃ more last, p.run 2 pool more = some last ∧
          last.answer? = some (p.processBatch [a, b]).value ∧ 4 + more.length = 4 := by
  intro raster p a b
  obtain ⟨hanswer, hend⟩ := (processBatch_ordered p [a, b]).1 2
    [.take 0 0, .take 1 1, .finish 1, .finish 0] _ rfl
  exact ⟨_, _, rfl, rfl, by decide, hanswer _ rfl, hend (by decide)⟩

end Pipeline

end Quicklook
