import Quicklook.Proofs.Toml.Distinct
import Quicklook.Proofs.Toml.Merge

/-!
# Merging along paths

A value is read along paths of keys, and a merge of two values is known by what it says along each
path. What the upper value says comes first; where it says nothing, the lower value shows through,
unless the upper one has put something else than a table in the way.

* `at?_merge`: what a merge says along a path that nothing ends
* `at?_merge_of_ends`: and that it says nothing behind a value that is no table
* `merge_self`, `merge_merge`: a layer that is laid upon itself, or twice, changes nothing more
* `merge_along_paths`: the law of layers
-/

namespace Quicklook.Toml

open Entries (keys find?)

/-! ## §1 Paths -/

/-- The value under a key. Only tables have any. -/
def Value.under? : Value → String → Option Value
  | .table es, key => find? es key
  | _, _ => none

/-- The value that a path of keys leads to. -/
def Value.at? (v : Value) : List String → Option Value
  | [] => some v
  | key :: path => (v.under? key).bind fun w => w.at? path

/-- A value that is no table stands on the path, before its end. -/
def Value.Ends (v : Value) (path : List String) : Prop :=
  ∃ front, front <+: path ∧ front ≠ path ∧ ∃ w, v.at? front = some w ∧ ¬ w.IsTable

namespace Value

theorem isTable_table (es : Entries Value) : (table es).IsTable :=
  ⟨es, rfl⟩

theorem under?_of_not_isTable {v : Value} (h : ¬ v.IsTable) (key : String) :
    v.under? key = none := by
  cases v with
  | table es => exact absurd (isTable_table es) h
  | _ => rfl

theorem not_ends_nil (v : Value) : ¬ v.Ends [] := by
  rintro ⟨front, hprefix, hne, -⟩
  exact hne (List.prefix_nil.1 hprefix)

/-- A path is ended by its first value, or further down behind the first key. -/
theorem ends_cons_iff {v : Value} {key : String} {path : List String} :
    v.Ends (key :: path) ↔ ¬ v.IsTable ∨ ∃ w, v.under? key = some w ∧ w.Ends path := by
  constructor
  · rintro ⟨front, hprefix, hne, u, hu, htable⟩
    -- The value that ends the path stands at its beginning, or behind its first key.
    cases front with
    | nil => exact .inl (Option.some.inj hu ▸ htable)
    | cons first front =>
      obtain ⟨rfl, hrest⟩ := List.cons_prefix_cons.1 hprefix
      obtain ⟨w, hw, hu⟩ := Option.bind_eq_some_iff.1 hu
      refine .inr ⟨w, hw, front, hrest, ?_, u, hu, htable⟩
      exact fun heq => hne (congrArg (first :: ·) heq)
  · rintro (htable | ⟨w, hw, front, hprefix, hne, u, hu, htable⟩)
    · exact ⟨[], List.nil_prefix, nofun, v, rfl, htable⟩
    · refine ⟨key :: front, List.cons_prefix_cons.2 ⟨rfl, hprefix⟩, ?_, u, ?_, htable⟩
      · exact fun heq => hne (List.cons.inj heq).2
      · rw [at?, hw, Option.bind_some, hu]

/-- Nothing is behind a value that is no table. -/
theorem at?_of_ends {v : Value} {path : List String} (h : v.Ends path) : v.at? path = none := by
  induction path generalizing v with
  | nil => exact absurd h (not_ends_nil v)
  | cons key path ih =>
    rw [at?]
    rcases ends_cons_iff.1 h with htable | ⟨w, hw, h⟩
    · rw [under?_of_not_isTable htable, Option.bind_none]
    · rw [hw, Option.bind_some, ih h]

/-- A path that leads to a value is not ended on the way. -/
theorem not_ends_of_at? {v w : Value} {path : List String} (h : v.at? path = some w) :
    ¬ v.Ends path :=
  fun hends => nomatch (at?_of_ends hends).symm.trans h

/-- What holds of the values that are no tables, and of a table if it holds of all that it has,
    holds of every value. Merging goes through tables only. -/
theorem table_induction {P : Value → Prop} (other : ∀ v, ¬ v.IsTable → P v)
    (table : ∀ es : Entries Value, (∀ e ∈ es, P e.2) → P (.table es)) (v : Value) : P v := by
  -- The induction is on the size of values, since a table is a list of pairs and the values stand
  -- in them.
  refine (measure (sizeOf : Value → ℕ)).wf.induction v fun v ih => ?_
  by_cases h : v.IsTable
  · obtain ⟨es, rfl⟩ := h
    refine table es fun e he => ih e.2 ?_
    have hmem := List.sizeOf_lt_of_mem he
    have hentry : sizeOf e = 1 + sizeOf e.1 + sizeOf e.2 := rfl
    have htable : sizeOf (Value.table es) = 1 + sizeOf es := Value.table.sizeOf_spec es
    show sizeOf e.2 < sizeOf (Value.table es)
    omega
  · exact other v h

/-- A table is a map if its own keys are distinct and its values are maps. -/
theorem distinct_table_iff {es : Entries Value} :
    (table es).Distinct ↔ (keys es).Nodup ∧ ∀ e ∈ es, e.2.Distinct := by
  rw [Value.Distinct, entriesDistinct_iff]

theorem distinct_of_under? {v w : Value} {key : String} (h : v.Distinct)
    (hw : v.under? key = some w) : w.Distinct := by
  cases v with
  | table es => exact (distinct_table_iff.1 h).2 _ (Entries.mem_of_find? hw)
  | _ => cases hw

/-- What a path leads to in a value with distinct keys has distinct keys. -/
theorem distinct_of_at? {v w : Value} {path : List String} (h : v.Distinct)
    (hw : v.at? path = some w) : w.Distinct := by
  induction path generalizing v with
  | nil => exact Option.some.inj hw ▸ h
  | cons key path ih =>
    obtain ⟨u, hu, hw⟩ := Option.bind_eq_some_iff.1 hw
    exact ih (distinct_of_under? h hu) hw

end Value

/-! ## §2 What a merge says -/

/-- What comes of two layers at one place: their merge where both say something, otherwise what
    one of them says. -/
def layered : Option Value → Option Value → Option Value
  | some base, some upper => some (base.merge upper)
  | none, upper => upper
  | base, none => base

theorem layered_none_left (upper : Option Value) : layered none upper = upper := by
  cases upper <;> rfl

theorem layered_none_right (base : Option Value) : layered base none = base := by
  cases base <;> rfl

/-- Under each key of merged entries there is what comes of both layers. -/
theorem find?_mergeEntries_eq_layered {us : Entries Value} (h : (keys us).Nodup)
    (es : Entries Value) (key : String) :
    find? (mergeEntries es us) key = layered (find? es key) (find? us key) := by
  rw [find?_mergeEntries h]
  cases hu : find? us key with
  | none => exact (layered_none_right _).symm
  | some upper =>
    simp only [mergeAt]
    cases find? es key <;> rfl

namespace Value

variable {base upper : Value} {path : List String}

theorem under?_merge {us : Entries Value} (h : (keys us).Nodup) (base : Value) (key : String) :
    (base.merge (.table us)).under? key = layered (base.under? key) (find? us key) := by
  by_cases hb : base.IsTable
  · obtain ⟨es, rfl⟩ := hb
    exact find?_mergeEntries_eq_layered h es key
  · rw [merge_eq_of_base hb, under?_of_not_isTable hb, layered_none_left]
    rfl

/-- What a merge says along a path that the upper value does not end. -/
theorem at?_merge (hupper : upper.Distinct) (h : ¬ upper.Ends path) :
    (base.merge upper).at? path = layered (base.at? path) (upper.at? path) := by
  induction path generalizing base upper with
  | nil => rfl
  | cons key path ih =>
    obtain ⟨htable, hbelow⟩ := not_or.1 (mt ends_cons_iff.2 h)
    obtain ⟨us, rfl⟩ := not_not.1 htable
    rw [at?, at?, at?, under?_merge (distinct_table_iff.1 hupper).1]
    -- Below a key that only one of the two has, there is nothing to merge.
    cases hu : find? us key with
    | none =>
      have hnone : (table us).under? key = none := hu
      rw [hnone, layered_none_right, Option.bind_none, layered_none_right]
    | some u =>
      have hsome : (table us).under? key = some u := hu
      rw [hsome]
      -- Where both have the key, the merge is that of the two values behind it.
      cases base.under? key with
      | none => exact (layered_none_left _).symm
      | some b => exact ih (distinct_of_under? hupper hsome) fun h => hbelow ⟨u, hsome, h⟩

/-- What is no table in the upper value is what the merge says there. -/
theorem at?_merge_of_upper_other {u : Value} (hupper : upper.Distinct)
    (hu : upper.at? path = some u) (htable : ¬ u.IsTable) :
    (base.merge upper).at? path = some u := by
  rw [at?_merge hupper (not_ends_of_at? hu), hu]
  cases base.at? path with
  | none => rfl
  | some b => exact congrArg some (merge_eq_upper b htable)

/-- Where the lower value has no table, the upper one alone decides. -/
theorem at?_merge_of_base_other {u : Value} (hupper : upper.Distinct)
    (hu : upper.at? path = some u) (hb : ∀ b, base.at? path = some b → ¬ b.IsTable) :
    (base.merge upper).at? path = some u := by
  rw [at?_merge hupper (not_ends_of_at? hu), hu]
  cases h : base.at? path with
  | none => rfl
  | some b => exact congrArg some (merge_eq_of_base (hb b h) u)

/-- What the upper value puts in the way of a path stands in the way of the merge, too. -/
theorem at?_merge_of_ends (hupper : upper.Distinct) (h : upper.Ends path) :
    (base.merge upper).at? path = none := by
  obtain ⟨front, hprefix, hne, w, hw, htable⟩ := h
  exact at?_of_ends ⟨front, hprefix, hne, w, at?_merge_of_upper_other hupper hw htable, htable⟩

/-- A merge says something exactly where one of its layers does, and the lower one only where the
    upper one has put nothing in the way. -/
theorem isSome_at?_merge (hupper : upper.Distinct) :
    ((base.merge upper).at? path).isSome ↔
      (upper.at? path).isSome ∨ ¬ upper.Ends path ∧ (base.at? path).isSome := by
  by_cases h : upper.Ends path
  · rw [at?_merge_of_ends hupper h, at?_of_ends h]
    simp [h]
  · rw [at?_merge hupper h]
    cases base.at? path <;> cases upper.at? path <;> simp [layered, h]

/-- A merged table has the keys of both. -/
theorem mem_keys_mergeEntries {es us : Entries Value} (h : (keys us).Nodup) {key : String} :
    key ∈ keys (mergeEntries es us) ↔ key ∈ keys es ∨ key ∈ keys us := by
  simp only [← Entries.find?_isSome_iff, find?_mergeEntries_eq_layered h]
  cases find? es key <;> cases find? us key <;> simp [layered]

/-! ## §3 The same layer again -/

/-- Entries that change nothing where they meet a value change nothing at all. -/
theorem mergeEntries_eq_self {es us : Entries Value}
    (h : ∀ e ∈ us, ∃ base, find? es e.1 = some base ∧ base.merge e.2 = base) :
    mergeEntries es us = es := by
  induction us with
  | nil => rfl
  | cons u us ih =>
    obtain ⟨⟨base, hfind, hmerge⟩, hus⟩ := List.forall_mem_cons.1 h
    have hput : Entries.put es u.1 (mergeAt es u.1 u.2) = es := by
      rw [mergeAt, hfind]
      exact Entries.put_self (hfind.trans (congrArg some hmerge.symm))
    rw [mergeEntries_cons, hput, ih hus]

/-- A layer laid upon itself changes nothing. -/
theorem merge_self {v : Value} (h : v.Distinct) : v.merge v = v := by
  induction v using table_induction with
  | other v htable => exact merge_eq_upper v htable
  | table es ih =>
    obtain ⟨hkeys, hes⟩ := distinct_table_iff.1 h
    -- Every entry meets itself.
    refine congrArg Value.table (mergeEntries_eq_self fun e he => ⟨e.2, ?_, ih e he (hes e he)⟩)
    exact (Entries.find?_eq_some_iff hkeys).2 he

/-- A layer that is laid on a second time changes nothing more. -/
theorem merge_merge (h : upper.Distinct) (base : Value) :
    (base.merge upper).merge upper = base.merge upper := by
  induction upper using table_induction generalizing base with
  | other upper htable =>
    rw [merge_eq_upper _ htable, merge_eq_upper _ htable]
  | table us ih =>
    by_cases hb : base.IsTable
    · obtain ⟨es, rfl⟩ := hb
      obtain ⟨hkeys, hus⟩ := distinct_table_iff.1 h
      refine congrArg Value.table (mergeEntries_eq_self fun e he => ?_)
      -- The second time an entry meets what the first time has made of it.
      rw [find?_mergeEntries_eq_layered hkeys, (Entries.find?_eq_some_iff hkeys).2 he]
      cases find? es e.1 with
      | none => exact ⟨e.2, rfl, merge_self (hus e he)⟩
      | some b => exact ⟨b.merge e.2, rfl, ih e he (hus e he) b⟩
    -- What is no table has left nothing behind, so that the table is laid upon itself.
    · rw [merge_eq_of_base hb]
      exact merge_self h

/-! ## §4 Empty layers -/

theorem merge_empty (es : Entries Value) : (table es).merge (.table []) = .table es := rfl

/-- Entries under new keys come behind those that are there. -/
theorem mergeEntries_of_disjoint {es us : Entries Value} (hus : (keys us).Nodup)
    (h : ∀ key ∈ keys us, key ∉ keys es) : mergeEntries es us = es ++ us := by
  -- With every entry that is put, the keys of the others stay new.
  induction us generalizing es with
  | nil => exact (List.append_nil es).symm
  | cons u us ih =>
    obtain ⟨hkey, hus⟩ := List.nodup_cons.1 hus
    obtain ⟨hnew, h⟩ := List.forall_mem_cons.1 h
    have hput : Entries.put es u.1 (mergeAt es u.1 u.2) = es ++ [u] := by
      rw [mergeAt, Entries.find?_eq_none_iff.2 hnew, Entries.put_of_not_mem hnew]
    rw [mergeEntries_cons, hput, ih hus, List.append_assoc, List.singleton_append]
    intro key hmem
    rw [keys, List.map_append, List.mem_append, not_or]
    refine ⟨h key hmem, fun heq => hkey ?_⟩
    exact List.mem_singleton.1 heq ▸ hmem

/-- Nothing is lost of what is laid upon an empty table. -/
theorem empty_merge {us : Entries Value} (h : (keys us).Nodup) :
    (table []).merge (.table us) = .table us :=
  congrArg Value.table (mergeEntries_of_disjoint h nofun)

/-! ## §5 Layers are maps -/

/-- Merging keeps keys distinct, if it does so for the values that meet. -/
theorem distinct_mergeEntries {es us : Entries Value}
    (h : ∀ e ∈ us, ∀ base : Value, base.Distinct → e.2.Distinct → (base.merge e.2).Distinct)
    (hes : (table es).Distinct) (hus : ∀ e ∈ us, e.2.Distinct) :
    (table (mergeEntries es us)).Distinct := by
  induction us generalizing es with
  | nil => exact hes
  | cons u us ih =>
    obtain ⟨hu, hus⟩ := List.forall_mem_cons.1 hus
    obtain ⟨hmerge, h⟩ := List.forall_mem_cons.1 h
    obtain ⟨hkeys, hvalues⟩ := distinct_table_iff.1 hes
    have hnew : (mergeAt es u.1 u.2).Distinct := by
      rw [mergeAt]
      split
      · rename_i base hfind
        exact hmerge base (hvalues _ (Entries.mem_of_find? hfind)) hu
      · exact hu
    refine ih h (distinct_table_iff.2 ⟨Entries.nodup_keys_put hkeys _ _, fun e he => ?_⟩) hus
    rcases Entries.mem_of_mem_put he with rfl | hmem
    · exact hnew
    · exact hvalues e hmem

/-- A merge of maps is a map. -/
theorem distinct_merge (hbase : base.Distinct) (hupper : upper.Distinct) :
    (base.merge upper).Distinct := by
  induction upper using table_induction generalizing base with
  | other upper htable => rwa [merge_eq_upper _ htable]
  | table us ih =>
    by_cases hb : base.IsTable
    · obtain ⟨es, rfl⟩ := hb
      refine distinct_mergeEntries (fun e he base hbase => ?_) hbase (distinct_table_iff.1 hupper).2
      exact ih e he hbase
    · rwa [merge_eq_of_base hb]

/-- **The law of layers.** A merge of two values, whose tables are maps, is such a value again.
    Along each path it says

    * what the upper value says, if that is no table, or if the lower value has no table there;
    * what the lower value says, if the upper one says nothing and has put nothing but tables on
      the way;
    * and where both have tables, a table with the keys of both.

    There are no other paths in it. So a layer that is laid upon itself or twice changes nothing
    more, and an empty table changes nothing above or below a table. -/
theorem merge_along_paths (hbase : base.Distinct) (hupper : upper.Distinct) :
    (base.merge upper).Distinct ∧
    (∀ path u, upper.at? path = some u →
      (¬ u.IsTable ∨ ∀ b, base.at? path = some b → ¬ b.IsTable) →
      (base.merge upper).at? path = some u) ∧
    (∀ path b, upper.at? path = none → ¬ upper.Ends path → base.at? path = some b →
      (base.merge upper).at? path = some b) ∧
    (∀ path es us, base.at? path = some (.table es) → upper.at? path = some (.table us) →
      ∃ ms, (base.merge upper).at? path = some (.table ms) ∧
        ∀ key, key ∈ keys ms ↔ key ∈ keys es ∨ key ∈ keys us) ∧
    (∀ path, ((base.merge upper).at? path).isSome ↔
      (upper.at? path).isSome ∨ ¬ upper.Ends path ∧ (base.at? path).isSome) ∧
    upper.merge upper = upper ∧
    (base.IsTable → base.merge (.table []) = base) ∧
    (upper.IsTable → (table []).merge upper = upper) ∧
    (base.merge upper).merge upper = base.merge upper := by
  refine ⟨distinct_merge hbase hupper, ?_, ?_, ?_, fun path => isSome_at?_merge hupper,
    merge_self hupper, ?_, ?_, merge_merge hupper base⟩
  -- What the upper value says is kept whole, unless there are tables on both sides.
  · rintro path u hu (htable | hother)
    · exact at?_merge_of_upper_other hupper hu htable
    · exact at?_merge_of_base_other hupper hu hother
  · intro path b hu hends hb
    rw [at?_merge hupper hends, hu, hb, layered_none_right]
  · intro path es us hb hu
    have hus := distinct_table_iff.1 (distinct_of_at? hupper hu)
    refine ⟨mergeEntries es us, ?_, fun key => mem_keys_mergeEntries hus.1⟩
    rw [at?_merge hupper (not_ends_of_at? hu), hu, hb]
    rfl
  · rintro ⟨es, rfl⟩
    exact merge_empty es
  · rintro ⟨us, rfl⟩
    exact empty_merge (distinct_table_iff.1 hupper).1

/-- A scalar takes the place of a table, a table that of a scalar, and a neighbour of what is
    replaced stays. -/
theorem scalar_takes_place_of_table :
    let base := table [("a", table [("b", integer 1), ("c", integer 2)]),
      ("d", table [("e", integer 3)])]
    let upper := table [("d", boolean true), ("a", table [("b", table [])])]
    base.Distinct ∧ upper.Distinct ∧
      (base.merge upper).at? ["a", "b"] = some (table []) ∧
      (base.merge upper).at? ["a", "c"] = some (integer 2) ∧
      (base.merge upper).at? ["d"] = some (boolean true) ∧
      (base.merge upper).at? ["d", "e"] = none := by
  intro base upper
  have hbase : base.Distinct := by simp [base, Value.Distinct, entriesDistinct, keys]
  have hupper : upper.Distinct := by simp [upper, Value.Distinct, entriesDistinct, keys]
  have hscalar : ¬ (boolean true).IsTable := by
    rintro ⟨es, h⟩
    cases h
  -- The path to `c` leads through tables only, and the one to `e` does not.
  have hends : ¬ upper.Ends ["a", "c"] := by
    simp [upper, ends_cons_iff, not_ends_nil, under?, find?, isTable_table]
  have hends' : upper.Ends ["d", "e"] := by
    simp [upper, ends_cons_iff, under?, find?, hscalar]
  obtain ⟨-, hfirst, hsecond, -, hpaths, -⟩ := merge_along_paths hbase hupper
  refine ⟨hbase, hupper, hfirst _ _ rfl (.inr ?_), hsecond _ _ rfl hends rfl,
    hfirst _ _ rfl (.inl hscalar), ?_⟩
  · rintro b hb ⟨es, rfl⟩
    cases hb
  · rw [← Option.not_isSome_iff_eq_none, hpaths, at?_of_ends hends']
    simp [hends']

end Value

end Quicklook.Toml
