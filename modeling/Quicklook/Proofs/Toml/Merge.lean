import Quicklook.Proofs.Toml.Entries

/-!
# Merged tables

Of a merged table it is enough to know what is found under each key; everything that is done in
the order of the keys follows from that.

* `find?_mergeEntries`: what a merged table says
* `filter_sorted_mergeEntries`: its entries under the keys of the upper table, in order
* `merge_eq_upper`, `merge_eq_of_base`: only two tables are merged, and anything else is replaced
-/

namespace Quicklook.Toml

open Entries (keys find? sorted)

/-! ## §1 Values -/

/-- The value is a table. -/
def Value.IsTable (v : Value) : Prop :=
  ∃ es, v = .table es

/-- What is not a table replaces everything below it. -/
theorem Value.merge_eq_upper (base : Value) {upper : Value} (h : ¬ upper.IsTable) :
    base.merge upper = upper := by
  cases upper with
  | table es => exact absurd ⟨es, rfl⟩ h
  | _ => rfl

/-- What is not a table is replaced by everything that is laid upon it. -/
theorem Value.merge_eq_of_base {base : Value} (h : ¬ base.IsTable) (upper : Value) :
    base.merge upper = upper := by
  cases base with
  | table es => exact absurd ⟨es, rfl⟩ h
  | _ => cases upper <;> rfl

/-! ## §2 Entries -/

/-- What becomes of the value under a key that is laid upon entries. -/
def mergeAt (es : Entries Value) (key : String) (upper : Value) : Value :=
  match find? es key with
  | some base => base.merge upper
  | none => upper

/-- The entries of the upper table are laid on one after another. -/
theorem mergeEntries_cons (es us : Entries Value) (key : String) (upper : Value) :
    mergeEntries es ((key, upper) :: us) =
      mergeEntries (Entries.put es key (mergeAt es key upper)) us := rfl

/-- Merging only puts entries, which keeps keys distinct. -/
theorem nodup_keys_mergeEntries {es : Entries Value} (h : (keys es).Nodup)
    (us : Entries Value) : (keys (mergeEntries es us)).Nodup := by
  induction us generalizing es with
  | nil => exact h
  | cons u us ih => exact ih (Entries.nodup_keys_put h _ _)

/-- What is put under one key does not change what becomes of another. -/
theorem mergeAt_put_of_ne {es : Entries Value} {key other : String} (h : key ≠ other)
    (v upper : Value) : mergeAt (Entries.put es key v) other upper = mergeAt es other upper := by
  rw [mergeAt, mergeAt, Entries.find?_put, if_neg h]

/-- What a merged table says: under the keys of the upper one the merged values, and otherwise
    what was there. -/
theorem find?_mergeEntries {us : Entries Value} (h : (keys us).Nodup) (es : Entries Value)
    (key : String) :
    find? (mergeEntries es us) key =
      match find? us key with
      | some upper => some (mergeAt es key upper)
      | none => find? es key := by
  induction us generalizing es with
  | nil => rfl
  | cons u us ih =>
    obtain ⟨k, upper⟩ := u
    obtain ⟨hk, hus⟩ := List.nodup_cons.1 h
    -- What is put under the first key does not matter to the other entries of the upper table.
    rw [mergeEntries_cons, ih hus, find?]
    -- The first key does not come again, so that what was put under it stays.
    by_cases heq : k = key
    · subst heq
      rw [Entries.find?_eq_none_iff.2 hk, if_pos rfl, Entries.find?_put, if_pos rfl]
    · rw [if_neg heq, Entries.find?_put, if_neg heq]
      simp only [mergeAt_put_of_ne heq]

/-- The entries of a merged table under the keys of the upper one, in the order of their keys. -/
theorem filter_sorted_mergeEntries {es us : Entries Value} (hes : (keys es).Nodup)
    (hus : (keys us).Nodup) :
    (sorted (mergeEntries es us)).filter (fun e => e.1 ∈ keys us) =
      (sorted us).map fun e => (e.1, mergeAt es e.1 e.2) := by
  have hmerged := nodup_keys_mergeEntries hes us
  -- Both sides ascend, so it is enough to compare their entries one by one.
  refine Entries.Ascending.eq_of_mem_iff ((Entries.ascending_sorted hmerged).filter _)
    (List.pairwise_map.2 (Entries.ascending_sorted hus)) ?_
  rintro ⟨key, v⟩
  rw [List.mem_filter, Entries.mem_sorted, ← Entries.find?_eq_some_iff hmerged,
    find?_mergeEntries hus, List.mem_map]
  -- On the left the look-up in the merged table is known; on the right an entry is found under its
  -- key.
  constructor
  · rintro ⟨hv, hkey⟩
    obtain ⟨upper, hupper⟩ := Option.isSome_iff_exists.1
      ((Entries.find?_isSome_iff us key).2 (of_decide_eq_true hkey))
    rw [hupper] at hv
    exact ⟨(key, upper), Entries.mem_sorted.2 ((Entries.find?_eq_some_iff hus).1 hupper),
      by rw [Option.some.inj hv]⟩
  · rintro ⟨⟨k, upper⟩, hmem, heq⟩
    obtain ⟨rfl, rfl⟩ := Prod.mk.inj heq
    have hmem' := Entries.mem_sorted.1 hmem
    rw [(Entries.find?_eq_some_iff hus).2 hmem']
    exact ⟨rfl, decide_eq_true (Entries.mem_keys hmem')⟩

end Quicklook.Toml
