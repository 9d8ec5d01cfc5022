import Quicklook.Proofs.Settings.Layering

/-!
# Settings as layers

Settings that are written as a value can be laid upon others and read again. A written group has an
entry for each of its fields, so the upper layer wins throughout. The one exception is a field that
need not be given: where it is missing above, the lower layer shows through.

Merging moves entries about, and reading sorts them, so the order in which they were written does
not count.

* `toValue_eq_ok_iff`: which settings can be written, and as what
* `Schema.read_of_perm`: a table is read in the order of its keys
* `ofValue_merge_entries`: written settings laid upon others
* `resolve_written`: the settings that written layers give
-/

namespace Quicklook

open Toml (Entries mergeEntries)
open Toml.Entries (keys)

/-! ## §1 Written settings -/

/-- A whole number that leaves room for a sign. -/
def Writable (n : UInt64) : Prop :=
  n.toNat ≤ 2 ^ 63 - 1

theorem wordValue_of_writable {n : UInt64} (h : Writable n) :
    wordValue n = .ok (.integer n.toInt64) :=
  if_pos h

theorem wordValue_of_not_writable {n : UInt64} (h : ¬ Writable n) :
    wordValue n = .error .unwritable :=
  if_neg h

/-- The entries that a rendering is written as. -/
def Rendering.entries (s : Rendering) : Entries Toml.Value := [
  ("create_overview", .boolean s.createOverview),
  ("store_original_image", .boolean s.storeOriginal),
  ("overview_max_side_length", .float s.overviewSide),
  ("max_source_size_mb", .integer s.maxSourceMb.toInt64)]

/-- The entries that a workload is written as. A number of workers that is not given has none. -/
def Workload.entries (s : Workload) : Entries Toml.Value :=
  (s.maxProcesses.map fun n => ("max_processes", .integer n.toInt64)).toList ++
    [("spool_threshold_bytes", .integer s.spoolThreshold.toInt64)]

/-- No number of the workload is too large to be written. -/
structure Workload.IsWritable (s : Workload) : Prop where
  processes : ∀ n ∈ s.maxProcesses, Writable n
  threshold : Writable s.spoolThreshold

namespace Settings

/-- The entries that settings are written as. -/
def entries (s : Settings) : Entries Toml.Value := [
  ("render", .table s.rendering.entries),
  ("processing", .table s.workload.entries)]

/-- No number of the settings is too large to be written. -/
structure IsWritable (s : Settings) : Prop where
  maxSource : Writable s.rendering.maxSourceMb
  workload : s.workload.IsWritable

/-- Writable settings are written entry by entry. -/
theorem toValue_of_isWritable {s : Settings} (h : s.IsWritable) :
    s.toValue = .ok (.table s.entries) := by
  obtain ⟨hsource, hprocesses, hthreshold⟩ := h
  rw [toValue, wordValue_of_writable hsource, wordValue_of_writable hthreshold, entries,
    Workload.entries]
  cases hn : s.workload.maxProcesses with
  | none => rfl
  | some n =>
    simp only [wordValue_of_writable (hprocesses n hn)]
    rfl

/-- One number that is too large is enough, wherever it stands. -/
theorem toValue_of_not_isWritable {s : Settings} (h : ¬ s.IsWritable) :
    s.toValue = .error .unwritable := by
  rw [toValue]
  by_cases hsource : Writable s.rendering.maxSourceMb
  · rw [wordValue_of_writable hsource]
    -- If the first number can be written, then one of the others cannot.
    by_cases hprocesses : ∀ n ∈ s.workload.maxProcesses, Writable n
    · have hthreshold : ¬ Writable s.workload.spoolThreshold := fun hthreshold =>
        h ⟨hsource, hprocesses, hthreshold⟩
      rw [wordValue_of_not_writable hthreshold]
      cases hn : s.workload.maxProcesses with
      | none => rfl
      | some n =>
        simp only [wordValue_of_writable (hprocesses n hn)]
        rfl
    · cases hn : s.workload.maxProcesses with
      | none => exact absurd (fun n hmem => by rw [hn] at hmem; cases hmem) hprocesses
      | some n =>
        have hn' : ¬ Writable n := fun hw => hprocesses fun m hm => by
          rw [hn] at hm
          obtain rfl := Option.some.inj hm
          exact hw
        simp only [wordValue_of_not_writable hn']
        rfl
  · rw [wordValue_of_not_writable hsource]
    rfl

/-- Which settings can be written, and as what. -/
theorem toValue_eq_ok_iff {s : Settings} {v : Toml.Value} :
    s.toValue = .ok v ↔ s.IsWritable ∧ v = .table s.entries := by
  by_cases h : s.IsWritable
  · rw [toValue_of_isWritable h]
    simp [h, eq_comm]
  · rw [toValue_of_not_isWritable h]
    simp [h]

end Settings

/-! ## §2 Reading what was written -/

section Reading

variable {σ α : Type} {s : Schema σ} {name : String}
  {read : Form → Toml.Value → Except Fault α} {set : α → σ → σ}

/-- A table is read in the order of its keys, wherever its entries stand. -/
theorem Schema.read_of_perm {es fs : Entries Toml.Value} (h : es.Perm fs) (hfs : fs.Ascending) :
    s.read .layered (.table es) = fs.foldlM (s.enterNamed .layered) s.initial := by
  rw [read_table, Toml.Entries.sorted_eq_of_perm h hfs]

/-- An entry that can be read is entered, and the others after it. -/
theorem Schema.foldlM_enterNamed_cons {v : Toml.Value} {a : α} {es : Entries Toml.Value}
    {group : σ} (hfind : s.fields.find? (·.name == name) = some (.make name read set))
    (hread : read .layered v = .ok a) :
    ((name, v) :: es).foldlM (s.enterNamed .layered) group =
      es.foldlM (s.enterNamed .layered) (set a group) := by
  have henter : s.enterNamed .layered group (name, v) = .ok (set a group) := by
    simp only [enterNamed, hfind, Field.make, hread]
    rfl
  rw [List.foldlM_cons, henter]
  rfl

end Reading

/-- A number that can be written is read as itself. -/
theorem Form.word_toInt64 (expected : String) {n : UInt64} (h : Writable n) :
    Form.word expected .layered (.integer n.toInt64) = .ok n := by
  have hnonneg : 0 ≤ n.toInt64 := by
    -- The sign bit is free, so as a signed number it is what it was.
    have hlt : 2 * n.toBitVec.toNat < 2 ^ 64 := by
      have hle : n.toBitVec.toNat ≤ 2 ^ 63 - 1 := h
      omega
    have hint : n.toInt64.toInt = n.toNat := BitVec.toInt_eq_toNat_of_lt hlt
    rw [Int64.le_iff_toInt_le, hint]
    exact Int.natCast_nonneg _
  have hview : Form.layered.view (.integer n.toInt64) = .integer n.toInt64 := rfl
  rw [word, hview]
  simp only [if_pos hnonneg, UInt64.toUInt64_toInt64]

theorem Rendering.read_entries {s : Rendering} (h : Writable s.maxSourceMb) :
    Rendering.schema.read .layered (.table s.entries) = .ok s := by
  let byName : Entries Toml.Value := [
    ("create_overview", .boolean s.createOverview),
    ("max_source_size_mb", .integer s.maxSourceMb.toInt64),
    ("overview_max_side_length", .float s.overviewSide),
    ("store_original_image", .boolean s.storeOriginal)]
  have hascending : byName.Ascending := Toml.Entries.ascending_of_keys <| by
    simp only [keys, byName, List.map_cons, List.map_nil]
    decide +kernel
  -- All entries but the first one are written backwards.
  have hperm : s.entries.Perm byName := (List.reverse_perm _).symm.cons _
  rw [Schema.read_of_perm hperm hascending, Schema.foldlM_enterNamed_cons rfl rfl,
    Schema.foldlM_enterNamed_cons rfl (Form.word_toInt64 _ h),
    Schema.foldlM_enterNamed_cons rfl rfl, Schema.foldlM_enterNamed_cons rfl rfl]
  rfl

/-- The entries of a workload are written in the order of their keys. -/
theorem Workload.ascending_entries (s : Workload) : s.entries.Ascending := by
  refine Toml.Entries.ascending_of_keys ?_
  rw [entries, keys, List.map_append]
  cases s.maxProcesses with
  | none => exact List.pairwise_singleton _ _
  | some n =>
    simp only [Option.map_some, Option.toList_some, List.map_cons, List.map_nil]
    decide +kernel

/-- A written workload is read as itself, in whatever order its entries stand. -/
theorem Workload.read_of_perm {s : Workload} (h : s.IsWritable) {es : Entries Toml.Value}
    (hperm : es.Perm s.entries) : Workload.schema.read .layered (.table es) = .ok s := by
  rw [Schema.read_of_perm hperm s.ascending_entries, entries]
  obtain ⟨processes, threshold⟩ := s
  -- There is one entry or there are two.
  cases processes with
  | none =>
    rw [Option.map_none, Option.toList_none, List.nil_append,
      Schema.foldlM_enterNamed_cons rfl (Form.word_toInt64 _ h.threshold)]
    rfl
  | some n =>
    rw [Option.map_some, Option.toList_some, List.singleton_append,
      Schema.foldlM_enterNamed_cons rfl (Form.word_toInt64 _ (h.processes n rfl)),
      Schema.foldlM_enterNamed_cons rfl (Form.word_toInt64 _ h.threshold)]
    rfl

/-! ## §3 Layers -/

/-- A workload laid upon another one: the number of workers shows through where it is not given. -/
def Workload.over (upper lower : Workload) : Workload where
  maxProcesses := upper.maxProcesses.or lower.maxProcesses
  spoolThreshold := upper.spoolThreshold

/-- Settings laid upon others. -/
def Settings.over (upper lower : Settings) : Settings where
  rendering := upper.rendering
  workload := upper.workload.over lower.workload

theorem Workload.IsWritable.over {upper lower : Workload} (h : upper.IsWritable)
    (h' : lower.IsWritable) : (upper.over lower).IsWritable where
  processes n hn := by
    -- The number of workers comes from one of the two layers.
    rcases Option.or_eq_some_iff.1 hn with hupper | ⟨-, hlower⟩
    · exact h.processes n hupper
    · exact h'.processes n hlower
  threshold := h.threshold

/-- Merged workloads have the entries of one laid upon the other. -/
theorem Workload.perm_mergeEntries_entries (upper lower : Workload) :
    (mergeEntries lower.entries upper.entries).Perm (upper.over lower).entries := by
  obtain ⟨processes, threshold⟩ := upper
  obtain ⟨processes', threshold'⟩ := lower
  cases processes with
  | none => cases processes' <;> exact List.Perm.refl _
  | some n =>
    cases processes' with
    | some n' => exact List.Perm.refl _
    -- Only a number of workers that is given in the upper layer alone comes last.
    | none => exact List.Perm.swap _ _ _

namespace Settings

variable {s upper lower : Settings}

/-- Two groups are read one by one, however they were written. -/
theorem ofValue_table {rendering workload : Toml.Value}
    (hrendering : Rendering.schema.read .layered rendering = .ok s.rendering)
    (hworkload : Workload.schema.read .layered workload = .ok s.workload) :
    ofValue .layered (.table [("render", rendering), ("processing", workload)]) = .ok s := by
  let byName : Entries Toml.Value := [("processing", workload), ("render", rendering)]
  have hascending : byName.Ascending := Toml.Entries.ascending_of_keys <| by
    simp only [keys, byName, List.map_cons, List.map_nil]
    decide +kernel
  -- The groups are written in the other order than they are read in.
  rw [ofValue, Schema.read_of_perm (List.Perm.swap _ _ _) hascending,
    Schema.foldlM_enterNamed_cons rfl hworkload, Schema.foldlM_enterNamed_cons rfl hrendering]
  rfl

/-- Written settings are read as themselves. -/
theorem ofValue_entries (h : s.IsWritable) : ofValue .layered (.table s.entries) = .ok s :=
  ofValue_table (Rendering.read_entries h.maxSource)
    (Workload.read_of_perm h.workload (List.Perm.refl _))

/-- Written settings laid upon others. -/
theorem ofValue_merge_entries (h : upper.IsWritable) (h' : lower.IsWritable) :
    ofValue .layered ((Toml.Value.table lower.entries).merge (.table upper.entries)) =
      .ok (upper.over lower) := by
  -- The upper rendering has all entries of the lower one.
  have hmerge : (Toml.Value.table lower.entries).merge (.table upper.entries) =
      .table [("render", .table upper.rendering.entries),
        ("processing", .table (mergeEntries lower.workload.entries upper.workload.entries))] := rfl
  rw [hmerge]
  exact ofValue_table (Rendering.read_entries h.maxSource)
    (Workload.read_of_perm (h.workload.over h'.workload)
      (Workload.perm_mergeEntries_entries _ _))

/-! ## §4 Settings of written layers -/

/-- Nothing shows through from the defaults, which leave the number of workers open. -/
theorem over_default (s : Settings) : s.over .default = s := by
  obtain ⟨rendering, processes, threshold⟩ := s
  cases processes <;> rfl

theorem exists_toValue_iff :
    (∃ v, s.toValue = .ok v) ↔
      s.rendering.maxSourceMb.toNat ≤ 2 ^ 63 - 1 ∧
        (∀ n ∈ s.workload.maxProcesses, n.toNat ≤ 2 ^ 63 - 1) ∧
        s.workload.spoolThreshold.toNat ≤ 2 ^ 63 - 1 := by
  constructor
  · rintro ⟨v, hv⟩
    obtain ⟨hsource, hprocesses, hthreshold⟩ := (toValue_eq_ok_iff.1 hv).1
    exact ⟨hsource, hprocesses, hthreshold⟩
  · rintro ⟨hsource, hprocesses, hthreshold⟩
    exact ⟨_, toValue_of_isWritable ⟨hsource, hprocesses, hthreshold⟩⟩

/-- Layers that were written give the upper settings laid upon the lower ones, if these can be
    run with. -/
theorem resolve_toValue {above below : Toml.Value} (habove : upper.toValue = .ok above)
    (hbelow : lower.toValue = .ok below) :
    resolve below (some above) =
      match (upper.over lower).validate with
      | .ok () => .ok (upper.over lower)
      | .error e => .error (.invalid e) := by
  obtain ⟨hupper, rfl⟩ := toValue_eq_ok_iff.1 habove
  obtain ⟨hlower, rfl⟩ := toValue_eq_ok_iff.1 hbelow
  exact resolve_of_settings (ofValue_merge_entries hupper hlower)

/-- **Settings of written layers.** Settings can be written exactly if none of their whole numbers
    exceeds `2 ^ 63 - 1`. Of two layers that were written, the upper one holds, except that the
    number of workers of the lower one does where the upper one has none; this is the result if it
    can be run with, and otherwise what is wrong with it. So valid settings are read again as
    themselves, the side of overviews included, whether they are the only layer or lie upon the
    defaults. -/
theorem resolve_written :
    (∀ s : Settings, (∃ v, s.toValue = .ok v) ↔
      s.rendering.maxSourceMb.toNat ≤ 2 ^ 63 - 1 ∧
        (∀ n ∈ s.workload.maxProcesses, n.toNat ≤ 2 ^ 63 - 1) ∧
        s.workload.spoolThreshold.toNat ≤ 2 ^ 63 - 1) ∧
    (∀ (upper lower : Settings) (above below : Toml.Value),
      upper.toValue = .ok above → lower.toValue = .ok below →
      let processes := upper.workload.maxProcesses.or lower.workload.maxProcesses
      let s : Settings := { upper with workload.maxProcesses := processes }
      (s.validate = .ok () → resolve below (some above) = .ok s) ∧
      (∀ e, s.validate = .error e → resolve below (some above) = .error (.invalid e))) ∧
    ∀ (s : Settings) (v : Toml.Value), s.toValue = .ok v → s.validate = .ok () →
      resolve v none = .ok s ∧
      ∃ base, stockLayer = .ok base ∧ resolve base (some v) = .ok s := by
  refine ⟨fun s => exists_toValue_iff, ?_, ?_⟩
  · intro upper lower above below habove hbelow processes s
    have hs : s = upper.over lower := rfl
    have hresolve := resolve_toValue habove hbelow
    constructor
    · intro hvalid
      rw [hs] at hvalid ⊢
      rw [hresolve, hvalid]
    · intro e hinvalid
      rw [hs] at hinvalid
      rw [hresolve, hinvalid]
  · intro s v hv hvalid
    constructor
    · obtain ⟨hwritable, rfl⟩ := toValue_eq_ok_iff.1 hv
      exact resolve_eq_ok_iff.2 ⟨ofValue_entries hwritable, hvalid⟩
    -- The defaults are themselves a layer that was written.
    · have hstock : Settings.default.toValue = .ok (.table stockEntries) := stockLayer_eq
      have hresolve := resolve_toValue hv hstock
      rw [over_default, hvalid] at hresolve
      exact ⟨_, hstock, hresolve⟩

/-- Two workers are kept below a layer that says nothing about them, and a layer that forbids
    memory is refused. -/
theorem workers_show_through :
    let upper : Settings := ⟨⟨true, false, 512, 7⟩, ⟨none, 4096⟩⟩
    let lower : Settings := ⟨.default, ⟨some 2, 1⟩⟩
    let refused : Settings := { upper with workload.spoolThreshold := 0 }
    (∃ above below, upper.toValue = .ok above ∧ lower.toValue = .ok below ∧
      resolve below (some above) = .ok { upper with workload.maxProcesses := some 2 }) ∧
    (∃ above below, refused.toValue = .ok above ∧ lower.toValue = .ok below ∧
      resolve below (some above) = .error (.invalid .zeroThreshold)) ∧
    ∃ v, upper.toValue = .ok v ∧ upper.validate = .ok () ∧ resolve v none = .ok upper ∧
      ∃ base, stockLayer = .ok base ∧ resolve base (some v) = .ok upper := by
  intro upper lower refused
  have hnone : ∀ n ∈ upper.workload.maxProcesses, n.toNat ≤ 2 ^ 63 - 1 := by
    rintro _ ⟨⟩
  have hsome : ∀ n ∈ lower.workload.maxProcesses, n.toNat ≤ 2 ^ 63 - 1 := by
    rintro _ ⟨⟩
    decide
  obtain ⟨hwritten, hlayers, halone⟩ := resolve_written
  obtain ⟨above, habove⟩ := (hwritten upper).2 ⟨by decide, hnone, by decide⟩
  obtain ⟨below, hbelow⟩ := (hwritten lower).2 ⟨by decide, hsome, by decide⟩
  obtain ⟨above', habove'⟩ := (hwritten refused).2 ⟨by decide, hnone, by decide⟩
  refine ⟨⟨above, below, habove, hbelow, ?_⟩, ⟨above', below, habove', hbelow, ?_⟩,
    above, habove, rfl, halone upper above habove rfl⟩
  · exact (hlayers upper lower above below habove hbelow).1 rfl
  · exact (hlayers refused lower above' below habove' hbelow).2 .zeroThreshold rfl

end Settings

end Quicklook
