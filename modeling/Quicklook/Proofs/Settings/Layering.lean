import Quicklook.Proofs.Binary.Exact
import Quicklook.Proofs.Toml.Distinct
import Quicklook.Proofs.Toml.Merge
import Quicklook.Settings.Layers

/-!
# Defaults by layers and by schema

A setting that a file does not mention gets its default in two ways: a schema starts from the
defaults, and a file is laid upon the defaults written out. Both give the same settings, and the
same fault where there are none.

The entries that the lowest layer adds to a table say what the schema starts from. Entering them
changes nothing, wherever they come in the order of the keys, because no other field touches
theirs.

* `Schema.read_mergeEntries`: a table laid upon entries in which a schema rests
* `ofValue_merge_stock`: a value laid upon the written defaults is read like the value itself
* `resolve_stock`: which settings a layer gives, and that they can be used
-/

namespace Quicklook

open Toml (Entries mergeEntries mergeAt)
open Toml.Entries (keys find? sorted)

/-! ## §1 Fields that do not touch each other -/

variable {σ α β : Type}

/-- What the first field holds stays there when the second one is entered. -/
def Field.Apart (f f' : Field σ) : Prop :=
  ∀ form v v' group group', f.enter form v group = .ok group →
    f'.enter form v' group = .ok group' → f.enter form v group' = .ok group'

@[simp] theorem Field.name_make {name : String} {read : Form → Toml.Value → Except Fault α}
    {set : α → σ → σ} : (Field.make name read set).name = name := rfl

/-- A field is entered if its value can be read, and then it is set. -/
theorem enter_make_eq_ok_iff {name : String} {read : Form → Toml.Value → Except Fault α}
    {set : α → σ → σ} {form : Form} {v : Toml.Value} {group group' : σ} :
    (Field.make name read set).enter form v group = .ok group' ↔
      ∃ a, read form v = .ok a ∧ set a group = group' := by
  simp only [Field.make]
  cases read form v <;> simp [Except.map]

/-- Fields are apart if it does not matter which of them is set first. -/
theorem Field.apart_make {name name' : String} {read : Form → Toml.Value → Except Fault α}
    {read' : Form → Toml.Value → Except Fault β} {set : α → σ → σ} {set' : β → σ → σ}
    (h : ∀ a b group, set a (set' b group) = set' b (set a group)) :
    (Field.make name read set).Apart (Field.make name' read' set') := by
  intro form v v' group group' hv hv'
  obtain ⟨a, hread, hset⟩ := enter_make_eq_ok_iff.1 hv
  obtain ⟨b, -, rfl⟩ := enter_make_eq_ok_iff.1 hv'
  exact enter_make_eq_ok_iff.2 ⟨a, hread, by rw [h, hset]⟩

namespace Schema

variable {s : Schema σ} {base us : Entries Toml.Value}

/-- Fields under different names do not touch each other. -/
def Independent (s : Schema σ) : Prop :=
  ∀ f ∈ s.fields, ∀ f' ∈ s.fields, f.name ≠ f'.name → f.Apart f'

/-- An entry is entered as the field of its name. -/
theorem enterNamed_eq_ok_iff {form : Form} {group group' : σ} {e : String × Toml.Value} :
    s.enterNamed form group e = .ok group' ↔
      ∃ f ∈ s.fields, s.fields.find? (·.name == e.1) = some f ∧ f.name = e.1 ∧
        f.enter form e.2 group = .ok group' := by
  unfold enterNamed
  -- A key without a field is a fault.
  cases hf : s.fields.find? (·.name == e.1) with
  | none => simp
  | some f =>
    have hmem := List.mem_of_find?_eq_some hf
    have hname : f.name = e.1 := by simpa using List.find?_some hf
    cases hent : f.enter form e.2 group <;> simp [Except.mapError, hmem, hname, hent]

/-- Entering an entry leaves the fields of other keys alone. -/
theorem Independent.enterNamed_keeps (h : s.Independent) {form : Form} {group group' : σ}
    {d e : String × Toml.Value} (hne : d.1 ≠ e.1) (hd : s.enterNamed form group d = .ok group)
    (he : s.enterNamed form group e = .ok group') : s.enterNamed form group' d = .ok group' := by
  obtain ⟨f, hf, hfind, hname, hent⟩ := enterNamed_eq_ok_iff.1 hd
  obtain ⟨f', hf', -, hname', hent'⟩ := enterNamed_eq_ok_iff.1 he
  refine enterNamed_eq_ok_iff.2 ⟨f, hf, hfind, hname, ?_⟩
  exact h f hf f' hf' (by rwa [hname, hname']) _ _ _ _ _ hent hent'

/-! ## §2 Entries in which a schema rests -/

/-- Entries with distinct keys that say what the schema starts from. -/
structure Rests (s : Schema σ) (base : Entries Toml.Value) : Prop where
  nodup : (keys base).Nodup
  enter_initial : ∀ d ∈ base, s.enterNamed .layered s.initial d = .ok s.initial

/-- Entries that the group already agrees with can be left out. -/
theorem Independent.foldlM_filter (h : s.Independent) (keep : String → Bool)
    {rest es : Entries Toml.Value} {group : σ} (hrest : ∀ d ∈ rest, keep d.1 = false)
    (hes : ∀ e ∈ es, keep e.1 = false → e ∈ rest)
    (hgroup : ∀ d ∈ rest, s.enterNamed .layered group d = .ok group) :
    es.foldlM (s.enterNamed .layered) group =
      (es.filter fun e => keep e.1).foldlM (s.enterNamed .layered) group := by
  -- The group agrees with all of `rest` throughout: what is entered has other keys.
  induction es generalizing group with
  | nil => rfl
  | cons e es ih =>
    have hes' : ∀ e ∈ es, keep e.1 = false → e ∈ rest := fun e he =>
      hes e (List.mem_cons_of_mem _ he)
    -- An entry that is left out is one of `rest`, and changes nothing.
    cases hkeep : keep e.1 with
    | false =>
      have hskip := hgroup e (hes e (List.mem_cons_self ..) hkeep)
      rw [List.foldlM_cons, hskip, List.filter_cons_of_neg (by simp [hkeep])]
      exact ih hes' hgroup
    | true =>
      rw [List.foldlM_cons, List.filter_cons_of_pos (by simp [hkeep]), List.foldlM_cons]
      cases hent : s.enterNamed .layered group e with
      | error fault => rfl
      | ok group' =>
        refine ih hes' fun d hd => h.enterNamed_keeps ?_ (hgroup d hd) hent
        -- A key that is kept is none of those in `rest`.
        intro heq
        have hfalse := hrest d hd
        rw [heq, hkeep] at hfalse
        cases hfalse

/-- Entries may be changed if each is entered as before. -/
theorem foldlM_map_enterNamed {form : Form} {f : String × Toml.Value → String × Toml.Value}
    {es : Entries Toml.Value} {group : σ}
    (h : ∀ e ∈ es, ∀ group, s.enterNamed form group (f e) = s.enterNamed form group e) :
    (es.map f).foldlM (s.enterNamed form) group = es.foldlM (s.enterNamed form) group := by
  -- The group changes from one entry to the next, so the induction is for all groups.
  induction es generalizing group with
  | nil => rfl
  | cons e es ih =>
    rw [List.map_cons, List.foldlM_cons, List.foldlM_cons, h e (List.mem_cons_self ..)]
    congr 1
    funext group'
    exact ih fun e he => h e (List.mem_cons_of_mem _ he)

/-- The entries of a table are entered in the order of their keys. -/
theorem read_table (entries : Entries Toml.Value) :
    s.read .layered (.table entries) =
      (sorted entries).foldlM (s.enterNamed .layered) s.initial := rfl

/-- A table laid upon entries in which the schema rests is read like the table itself, if each
    of its values is when it is laid upon the value below. -/
theorem Rests.read_mergeEntries (hbase : s.Rests base) (h : s.Independent)
    (hus : (keys us).Nodup)
    (hvalue : ∀ key d u, (key, d) ∈ base → (key, u) ∈ us → ∀ group,
      s.enterNamed .layered group (key, d.merge u) = s.enterNamed .layered group (key, u)) :
    s.read .layered (.table (mergeEntries base us)) = s.read .layered (.table us) := by
  have hmerged := Toml.nodup_keys_mergeEntries hbase.nodup us
  -- The entries of the lower layer that are left in the merged table.
  let rest := base.filter fun d => d.1 ∉ keys us
  have hrest : ∀ d ∈ rest, decide (d.1 ∈ keys us) = false := fun d hd => by
    simpa using (List.mem_filter.1 hd).2
  have hleft : ∀ e ∈ sorted (mergeEntries base us), decide (e.1 ∈ keys us) = false → e ∈ rest := by
    rintro ⟨key, v⟩ hmem hkey
    have hnot : key ∉ keys us := of_decide_eq_false hkey
    have hfind := (Toml.Entries.find?_eq_some_iff hmerged).2 (Toml.Entries.mem_sorted.1 hmem)
    rw [Toml.find?_mergeEntries hus, Toml.Entries.find?_eq_none_iff.2 hnot] at hfind
    exact List.mem_filter.2 ⟨(Toml.Entries.find?_eq_some_iff hbase.nodup).1 hfind, by simpa⟩
  -- They say what the schema starts from, and so does the group before anything is entered.
  have hgroup : ∀ d ∈ rest, s.enterNamed .layered s.initial d = .ok s.initial := fun d hd =>
    hbase.enter_initial d (List.mem_filter.1 hd).1
  -- All others are entered like the entries of the upper table that they come from.
  have henter : ∀ e ∈ sorted us, ∀ group,
      s.enterNamed .layered group (e.1, mergeAt base e.1 e.2) =
        s.enterNamed .layered group e := by
    rintro ⟨key, u⟩ hmem group
    rw [mergeAt]
    split
    case h_1 d hd =>
      exact hvalue key d u ((Toml.Entries.find?_eq_some_iff hbase.nodup).1 hd)
        (Toml.Entries.mem_sorted.1 hmem) group
    case h_2 => rfl
  rw [read_table, read_table, h.foldlM_filter (fun key => key ∈ keys us) hrest hleft hgroup,
    Toml.filter_sorted_mergeEntries hbase.nodup hus]
  exact foldlM_map_enterNamed henter

/-- A value laid upon scalars in which the schema rests is read like the value itself. -/
theorem Rests.read_merge (hbase : s.Rests base) (h : s.Independent)
    (hscalar : ∀ d ∈ base, ¬ d.2.IsTable) {upper : Toml.Value} (hupper : upper.Distinct) :
    s.read .layered ((Toml.Value.table base).merge upper) = s.read .layered upper := by
  by_cases htable : upper.IsTable
  · obtain ⟨us, rfl⟩ := htable
    refine hbase.read_mergeEntries h hupper.1 fun key d u hd _ group => ?_
    -- A scalar below leaves no trace in what is laid upon it.
    rw [Toml.Value.merge_eq_of_base (hscalar (key, d) hd)]
  · rw [Toml.Value.merge_eq_upper _ htable]

/-- The entries in which the schema rests give what it starts from. -/
theorem Rests.read_base (hbase : s.Rests base) (h : s.Independent) :
    s.read .layered (.table base) = .ok s.initial := by
  have hnil : (keys ([] : Entries Toml.Value)).Nodup := List.nodup_nil
  have hread : s.read .layered (.table base) = s.read .layered (.table []) :=
    hbase.read_mergeEntries h hnil fun _ _ _ _ hmem => absurd hmem List.not_mem_nil
  rw [hread, read_table, sorted, List.mergeSort_nil]
  rfl

end Schema

/-! ## §3 The written defaults

The entries that the defaults are written as, and why a schema rests in them. -/

def Rendering.stockEntries : Entries Toml.Value := [
  ("create_overview", .boolean true),
  ("store_original_image", .boolean true),
  ("overview_max_side_length", .float 1024),
  ("max_source_size_mb", .integer 120)]

def Workload.stockEntries : Entries Toml.Value := [
  -- There is no entry for the number of workers, which is not limited by default.
  ("spool_threshold_bytes", .integer 1048576)]

def Settings.stockEntries : Entries Toml.Value := [
  ("render", .table Rendering.stockEntries),
  ("processing", .table Workload.stockEntries)]

theorem Settings.stockLayer_eq : stockLayer = .ok (.table stockEntries) := rfl

/-- Every field of a group has a place of its own in it. -/
theorem Rendering.independent_schema : Rendering.schema.Independent := by
  simp [Schema.Independent, Rendering.schema, Field.apart_make]

theorem Workload.independent_schema : Workload.schema.Independent := by
  simp [Schema.Independent, Workload.schema, Field.apart_make]

theorem Settings.independent_schema : Settings.schema.Independent := by
  simp [Schema.Independent, Settings.schema, Field.apart_make]

/-- The written defaults of renditions say what the schema starts from. -/
theorem Rendering.rests_schema : Rendering.schema.Rests Rendering.stockEntries where
  nodup := by decide
  enter_initial := by
    simp only [Rendering.stockEntries, List.forall_mem_cons]
    exact ⟨rfl, rfl, rfl, rfl, fun _ h => nomatch h⟩

theorem Workload.rests_schema : Workload.schema.Rests Workload.stockEntries where
  nodup := by decide
  enter_initial := by
    simp only [Workload.stockEntries, List.forall_mem_cons]
    exact ⟨rfl, fun _ h => nomatch h⟩

/-- A group is read by its own schema, and its faults are told with its name. -/
theorem Settings.enterNamed_render (form : Form) (group : Settings) (v : Toml.Value) :
    Settings.schema.enterNamed form group ("render", v) =
      ((Rendering.schema.read form v).map fun r => { group with rendering := r }).mapError
        (Fault.within "render") := rfl

theorem Settings.enterNamed_processing (form : Form) (group : Settings) (v : Toml.Value) :
    Settings.schema.enterNamed form group ("processing", v) =
      ((Workload.schema.read form v).map fun w => { group with workload := w }).mapError
        (Fault.within "processing") := rfl

theorem Settings.rests_schema : Settings.schema.Rests Settings.stockEntries where
  nodup := by decide
  enter_initial := by
    have hrendering := Rendering.rests_schema.read_base Rendering.independent_schema
    have hworkload := Workload.rests_schema.read_base Workload.independent_schema
    simp only [Settings.stockEntries, List.forall_mem_cons]
    refine ⟨?_, ?_, fun _ h => nomatch h⟩
    -- The group comes back as it was, so setting it changes nothing.
    · rw [enterNamed_render, hrendering]
      rfl
    · rw [enterNamed_processing, hworkload]
      rfl

/-- A group laid upon its written defaults is read like the group itself. -/
theorem Rendering.read_merge_stock {upper : Toml.Value} (h : upper.Distinct) :
    Rendering.schema.read .layered ((Toml.Value.table stockEntries).merge upper) =
      Rendering.schema.read .layered upper := by
  refine rests_schema.read_merge independent_schema ?_ h
  simp [stockEntries, Toml.Value.IsTable]

theorem Workload.read_merge_stock {upper : Toml.Value} (h : upper.Distinct) :
    Workload.schema.read .layered ((Toml.Value.table stockEntries).merge upper) =
      Workload.schema.read .layered upper := by
  refine rests_schema.read_merge independent_schema ?_ h
  simp [stockEntries, Toml.Value.IsTable]

namespace Settings

/-- A value laid upon the written defaults is read like the value itself, faults included. -/
theorem ofValue_merge_stock {overlay : Toml.Value} (h : overlay.Distinct) :
    ofValue .layered ((Toml.Value.table stockEntries).merge overlay) =
      ofValue .layered overlay := by
  by_cases htable : overlay.IsTable
  -- Where both have a group, the same holds for the values in it.
  · obtain ⟨us, rfl⟩ := htable
    refine rests_schema.read_mergeEntries independent_schema h.1 fun key d u hd hu group => ?_
    have hdistinct : u.Distinct := Toml.entriesDistinct_iff.1 h.2 (key, u) hu
    simp only [stockEntries, List.mem_cons, List.not_mem_nil, or_false, Prod.mk.injEq] at hd
    rcases hd with ⟨rfl, rfl⟩ | ⟨rfl, rfl⟩
    · rw [enterNamed_render, enterNamed_render, Rendering.read_merge_stock hdistinct]
    · rw [enterNamed_processing, enterNamed_processing, Workload.read_merge_stock hdistinct]
  -- A scalar or an array leaves nothing of the defaults.
  · rw [Toml.Value.merge_eq_upper _ htable]

/-! ## §4 Settings of layers -/

section Resolve

variable {base : Toml.Value} {overlay : Option Toml.Value}

/-- A merged value that gives no settings is refused with the fault in it. -/
theorem resolve_of_fault {f : Fault}
    (h : ofValue .layered (overlay.elim base base.merge) = .error f) :
    resolve base overlay = .error (.misfit f) := by
  cases overlay <;>
    · simp only [resolve, Option.elim] at h ⊢
      rw [h]
      rfl

/-- Settings that were read are refused only if they are not valid. -/
theorem resolve_of_settings {s : Settings}
    (h : ofValue .layered (overlay.elim base base.merge) = .ok s) :
    resolve base overlay =
      match s.validate with
      | .ok () => .ok s
      | .error e => .error (.invalid e) := by
  -- Validation leaves the settings as they are.
  have hvalid : (do s.validate.mapError .invalid; pure s : Except SettingsError Settings) =
      match s.validate with
      | .ok () => .ok s
      | .error e => .error (.invalid e) := by
    cases s.validate <;> rfl
  cases overlay <;>
    · simp only [resolve, Option.elim] at h ⊢
      rw [h]
      exact hvalid

/-- Layers give the settings that the merged value gives, if these are valid. -/
theorem resolve_eq_ok_iff {s : Settings} :
    resolve base overlay = .ok s ↔
      ofValue .layered (overlay.elim base base.merge) = .ok s ∧ s.validate = .ok () := by
  cases hread : ofValue .layered (overlay.elim base base.merge) with
  | error f => simp [resolve_of_fault hread]
  | ok s' =>
    rw [resolve_of_settings hread]
    constructor
    · intro h
      split at h
      · next hvalid =>
        obtain rfl := Except.ok.inj h
        exact ⟨rfl, hvalid⟩
      · cases h
    · rintro ⟨h, hvalid⟩
      obtain rfl := Except.ok.inj h
      rw [hvalid]

end Resolve

/-- Valid settings have work for between one and all cores. -/
theorem workers_bounds {s : Settings} (h : s.validate = .ok ()) {cores : ℕ} (hcores : 1 ≤ cores) :
    1 ≤ s.workload.workers cores ∧ s.workload.workers cores ≤ cores := by
  obtain ⟨-, hprocesses⟩ := s.validate_eq_ok_iff.1 h
  rw [Workload.workers]
  -- Without a limit all cores are used, and a limit is not zero.
  cases hn : s.workload.maxProcesses with
  | none => exact ⟨hcores, le_rfl⟩
  | some n =>
    have hpos : 1 ≤ n.toNat := UInt64.pos_iff_ne_zero.2 fun hzero => hprocesses (hzero ▸ hn)
    exact ⟨le_min hpos hcores, min_le_right _ _⟩

/-- **Both kinds of defaults agree.** The defaults can be written out. Laid upon them, a value
    gives settings exactly if it gives them by itself and they are valid, and then the same; it is
    refused for its sense exactly if it gives settings by itself that are not valid, and for its
    form exactly if it gives none by itself, with the same fault; and for nothing else. All
    settings that layers give, whichever these are, have a spool threshold and between one and all
    cores for workers, and the side of overviews that is used is finite and positive. -/
theorem resolve_stock :
    (∃ base, stockLayer = .ok base ∧ ∀ overlay : Toml.Value, overlay.Distinct →
      (∀ s, resolve base (some overlay) = .ok s ↔
        ofValue .layered overlay = .ok s ∧ s.validate = .ok ()) ∧
      (∀ e, resolve base (some overlay) = .error (.invalid e) ↔
        ∃ s, ofValue .layered overlay = .ok s ∧ s.validate = .error e) ∧
      (∀ f, resolve base (some overlay) = .error (.misfit f) ↔
        ofValue .layered overlay = .error f) ∧
      ∀ e, resolve base (some overlay) = .error e →
        (∃ i, e = .invalid i) ∨ ∃ f, e = .misfit f) ∧
    ∀ base overlay s, resolve base overlay = .ok s →
      1 ≤ s.workload.spoolThreshold ∧ s.workload.maxProcesses ≠ some 0 ∧
      (∀ cores, 1 ≤ cores →
        1 ≤ s.workload.workers cores ∧ s.workload.workers cores ≤ cores) ∧
      s.rendering.effectiveSide.value.isFinite = true ∧
      0 < s.rendering.effectiveSide.value := by
  refine ⟨⟨_, stockLayer_eq, fun overlay hdistinct => ?_⟩, fun base overlay s h => ?_⟩
  · have hmerge := ofValue_merge_stock hdistinct
    cases hread : ofValue .layered overlay with
    | error f =>
      have hresolve : resolve (.table stockEntries) (some overlay) = .error (.misfit f) :=
        resolve_of_fault (hmerge.trans hread)
      simp [hresolve]
    | ok s =>
      have hresolve : resolve (.table stockEntries) (some overlay) =
          match s.validate with
          | .ok () => .ok s
          | .error e => .error (.invalid e) := resolve_of_settings (hmerge.trans hread)
      cases hvalid : s.validate with
      | error e => simp [hresolve, hvalid]
      | ok u => simp [hresolve, hvalid]
  · have hvalid := (resolve_eq_ok_iff.1 h).2
    obtain ⟨hthreshold, hprocesses⟩ := s.validate_eq_ok_iff.1 hvalid
    -- The side is used because it can be, or else it is the default.
    have husable := (Rendering.isUsable_iff _).2
      ⟨_, s.rendering.rational?_effectiveSide, s.rendering.exactSide_pos⟩
    rw [Rendering.isUsable, Bool.and_eq_true, decide_eq_true_iff] at husable
    exact ⟨UInt64.pos_iff_ne_zero.2 hthreshold, hprocesses,
      fun cores hcores => workers_bounds hvalid hcores, husable.1, husable.2⟩

/-- A file that only gives a side, and that as a whole number. -/
theorem resolve_stock_with_whole_side :
    let overlay : Toml.Value :=
      .table [("render", .table [("overview_max_side_length", .integer 5)])]
    let s : Settings := ⟨⟨true, true, Float.ofInt 5, 120⟩, .default⟩
    overlay.Distinct ∧ s.validate = .ok () ∧
      ∃ base, stockLayer = .ok base ∧ resolve base (some overlay) = .ok s ∧
        s.workload.workers 4 ≤ 4 := by
  intro overlay s
  have hdistinct : overlay.Distinct := by
    simp [overlay, Toml.Value.Distinct, Toml.entriesDistinct, keys]
  have hread : ofValue .layered overlay = .ok s := by
    simp only [overlay, ofValue, Schema.read_table, sorted, List.mergeSort_singleton,
      List.foldlM_cons, enterNamed_render]
    rfl
  have hvalid : s.validate = .ok () := rfl
  obtain ⟨⟨base, hbase, hresolve⟩, hbounds⟩ := resolve_stock
  have hs := ((hresolve overlay hdistinct).1 s).2 ⟨hread, hvalid⟩
  exact ⟨hdistinct, hvalid, base, hbase, hs, ((hbounds _ _ s hs).2.2.1 4 (by decide)).2⟩

end Settings

/-! ## §5 Settings files -/

/-- No key occurs twice in what a settings file says. -/
theorem SettingsFile.distinct_of_value? {f : SettingsFile} {v : Toml.Value}
    (h : f.value? = .ok (some v)) : v.Distinct := by
  -- A file that is missing has no value, and a directory or broken text is an error.
  unfold value? at h
  split at h
  · cases h
  · cases h
  · split at h
    · cases h
    · split at h
      · cases h
      · rename_i u hu
        obtain rfl := Option.some.inj (Except.ok.inj h)
        exact Toml.distinct_of_ofLayerText? hu

/-- A settings file gives the settings that its value gives by itself, if these are valid. -/
theorem SettingsFile.settings_eq_ok_iff {f : SettingsFile} {v : Toml.Value}
    (h : f.value? = .ok (some v)) {s : Settings} :
    f.settings = .ok s ↔ Settings.ofValue .layered v = .ok s ∧ s.validate = .ok () := by
  have hsettings : f.settings = Settings.resolve (.table Settings.stockEntries) (some v) := by
    rw [settings, Settings.stockLayer_eq, h]
    rfl
  rw [hsettings, Settings.resolve_eq_ok_iff, Option.elim,
    Settings.ofValue_merge_stock (distinct_of_value? h)]

end Quicklook
