import Quicklook.Pipeline.Item

/-!
# Batches on several workers

Every item of a batch has a slot. A worker that is idle takes some item that waits, and when
it has finished puts what came of the item into the item's slot. Which worker takes which item,
and in which order they finish, is left open: it is given from outside as a list of moves.
The answer is put together when all slots are filled.
-/

namespace Quicklook

/-! ## §1 Slots -/

/-- The place of one item in a batch. -/
inductive Slot where
  | waiting (item : Item)
  | taken (worker : Nat) (item : Item)
  | filled (group : List Item)

namespace Slot

/-- The worker that has the item, if one has. -/
def worker? : Slot → Option Nat
  | .taken worker _ => some worker
  | _ => none

/-- What came of the item, if it is finished. -/
def group? : Slot → Option (List Item)
  | .filled group => some group
  | _ => none

end Slot

/-! ## §2 Pools -/

/-- The slots of a batch, in the order of its items. -/
abbrev Pool := List Slot

namespace Pool

/-- All items wait. -/
def start (items : List Item) : Pool :=
  items.map .waiting

/-- The workers that have an item. -/
def busy (pool : Pool) : List Nat :=
  pool.filterMap Slot.worker?

theorem busy_append (pool pool' : Pool) : busy (pool ++ pool') = pool.busy ++ pool'.busy :=
  List.filterMap_append

@[simp] theorem busy_waiting (item : Item) (pool : Pool) :
    busy (.waiting item :: pool) = pool.busy := rfl

@[simp] theorem busy_taken (worker : Nat) (item : Item) (pool : Pool) :
    busy (.taken worker item :: pool) = worker :: pool.busy := rfl

@[simp] theorem busy_filled (group : List Item) (pool : Pool) :
    busy (.filled group :: pool) = pool.busy := rfl

/-- No worker has an item at the start. -/
@[simp] theorem busy_start (items : List Item) : (start items).busy = [] := by
  simp [start, busy, Slot.worker?]

/-- The answer to the batch, when every item is finished. -/
def answer? (pool : Pool) : Option (List Item) :=
  (pool.mapM Slot.group?).map regroup

end Pool

/-! ## §3 Moves -/

/-- What may happen next in a pool. -/
inductive Move where
  /-- A worker takes the item at a place. -/
  | take (worker index : Nat)
  /-- The worker that has the item at a place has finished it. -/
  | finish (index : Nat)

namespace Pipeline

variable (p : Pipeline) (workers : Nat)

/-- The pool after a move, if the move is possible: an item can be taken if it waits and the
    worker is idle, and it can be finished if it was taken. -/
def step (pool : Pool) : Move → Option Pool
  | .take worker index =>
    match pool[index]? with
    | some (.waiting item) =>
      if worker < workers ∧ worker ∉ pool.busy then some (pool.set index (.taken worker item))
      else none
    | _ => none
  | .finish index =>
    match pool[index]? with
    | some (.taken _ item) => some (pool.set index (.filled (p.process item).value.toList))
    | _ => none

/-- The pool after moves, if all of them are possible. -/
def run (p : Pipeline) (workers : Nat) (pool : Pool) : List Move → Option Pool
  | [] => some pool
  | move :: moves => do
    let pool ← p.step workers pool move
    p.run workers pool moves

end Pipeline

end Quicklook
