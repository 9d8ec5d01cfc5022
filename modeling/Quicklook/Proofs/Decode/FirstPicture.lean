import Mathlib.Data.List.Forall2
import Mathlib.Logic.Function.Iterate
import Mathlib.Order.Nat
import Quicklook.Decode.Walk

/-!
# The first picture

What a walk does is told here by positions in the sequence of items that it pulls from. At each
position there is the end of the sequence, an error of the file, or a segment, which is rendered
by the renderer as all segments before it have left it. The first error and the first picture
decide the walk; whatever comes later is neither pulled nor rendered.

* `acc_iff`: a walk comes to an end exactly if there is an end or something that decides it
* `run_of_passed`: passing over some items, by induction on their number
* `firstPicture_least`: what is found, what was pulled and rendered, and what was reported
-/

namespace Quicklook.Walk

variable {τ σ ρ : Type}

/-! ## §1 Positions -/

section Sequence

variable (pull : Pull τ σ)

/-- The sequence behind its next item; at its end it stays there. -/
def behind (t : τ) : τ :=
  match pull t with
  | none => t
  | some (_, rest) => rest

/-- The item at a position: a segment or an error of the file, and nothing behind the end. -/
def item (t : τ) (i : ℕ) : Option (Except DecodeError σ) :=
  (pull ((behind pull)^[i] t)).map Prod.fst

/-- The segments among the first `n` items, in order. -/
def segments (t : τ) (n : ℕ) : List σ :=
  (List.range n).filterMap fun i => (item pull t i).bind Except.toOption

variable {pull}

theorem item_zero (t : τ) : item pull t 0 = (pull t).map Prod.fst := rfl

theorem item_succ (t : τ) (i : ℕ) : item pull t (i + 1) = item pull (behind pull t) i := rfl

theorem segments_succ_left {t : τ} {s : σ} (h : item pull t 0 = some (.ok s)) (n : ℕ) :
    segments pull t (n + 1) = s :: segments pull (behind pull t) n := by
  rw [segments, List.range_succ_eq_map, List.filterMap_cons, h, List.filterMap_map]
  rfl

/-- One item more adds its segment at the back, or nothing if it is an error. -/
theorem segments_succ (t : τ) (n : ℕ) :
    segments pull t (n + 1) =
      segments pull t n ++ ((item pull t n).bind Except.toOption).toList := by
  rw [segments, List.range_succ, List.filterMap_append]
  cases h : (item pull t n).bind Except.toOption <;> simp [segments, h]

end Sequence

/-- The renderer after it was given some segments, one after another. -/
def Render.given (render : Render σ ρ) (state : ρ) (segments : List σ) : ρ :=
  segments.foldl (fun state s => (render s state).2) state

/-- The report about a segment that is passed over, by what it was rendered to. -/
inductive Reports (index : ℕ) : Decoded → Event → Prop
  | notRenderable : Reports index (.ok none) (.segmentNotRenderable index)
  | failed (e : DecodeError) : Reports index (.error e) (.segmentFailed index e.message)

section Outcomes

variable (pull : Pull τ σ) (render : Render σ ρ) (p : τ × ρ)

/-- The place behind the first `n` items, all segments among them having been rendered. -/
def place (n : ℕ) : τ × ρ :=
  ((behind pull)^[n] p.1, render.given p.2 (segments pull p.1 n))

/-- What comes of the item at a position: an error of the file, or what the segment renders to
    after all segments before it. -/
def outcome (i : ℕ) : Option (Except DecodeError Decoded) :=
  (item pull p.1 i).map (·.map fun s => (render s (place pull render p i).2).1)

/-- An item decides the walk if it is an error of the file or renders to a picture. -/
def IsDecisive (i : ℕ) : Prop :=
  (∃ e, item pull p.1 i = some (.error e)) ∨
    ∃ raster, outcome pull render p i = some (.ok (.ok (some raster)))

variable {pull render p}

/-- Every item that there is either decides the walk or is a segment to be reported. -/
theorem exists_reports {i : ℕ} (hitem : item pull p.1 i ≠ none)
    (h : ¬ IsDecisive pull render p i) (index : ℕ) :
    ∃ d event, outcome pull render p i = some (.ok d) ∧ Reports index d event := by
  cases hi : item pull p.1 i with
  | none => exact absurd hi hitem
  | some it =>
    cases it with
    | error e => exact absurd (.inl ⟨e, hi⟩) h
    | ok s =>
      have hout : outcome pull render p i =
          some (.ok (render s (place pull render p i).2).1) := by
        rw [outcome, hi]
        rfl
      -- A rendering fails, finds nothing or makes a picture; only the last decides.
      cases hd : (render s (place pull render p i).2).1 with
      | error e => exact ⟨_, _, hd ▸ hout, .failed e⟩
      | ok picture =>
        cases picture with
        | none => exact ⟨_, _, hd ▸ hout, .notRenderable⟩
        | some raster => exact absurd (.inr ⟨raster, hd ▸ hout⟩) h

section Pulled

variable {s : σ} {rest : τ}

theorem behind_eq {it : Except DecodeError σ} (h : pull p.1 = some (it, rest)) :
    behind pull p.1 = rest := by
  rw [behind, h]

/-- The first segment is rendered by the renderer as it is at the start. -/
theorem outcome_zero (h : pull p.1 = some (.ok s, rest)) :
    outcome pull render p 0 = some (.ok (render s p.2).1) := by
  rw [outcome, item_zero, h]
  rfl

variable (h : pull p.1 = some (.ok s, rest))

include h

/-- A place one item on is the place as seen from behind the first segment, which was rendered. -/
theorem place_succ (n : ℕ) :
    place pull render p (n + 1) = place pull render (rest, (render s p.2).2) n := by
  have hitem : item pull p.1 0 = some (.ok s) := by rw [item_zero, h]; rfl
  rw [place, place, segments_succ_left hitem, Function.iterate_succ_apply, behind_eq h]
  rfl

theorem outcome_succ (i : ℕ) :
    outcome pull render p (i + 1) = outcome pull render (rest, (render s p.2).2) i := by
  rw [outcome, outcome, place_succ h, item_succ, behind_eq h]

theorem isDecisive_succ {i : ℕ} :
    IsDecisive pull render p (i + 1) ↔ IsDecisive pull render (rest, (render s p.2).2) i := by
  rw [IsDecisive, IsDecisive, outcome_succ h, item_succ, behind_eq h]

end Pulled

end Outcomes

/-! ## §2 Coming to an end -/

section Ends

variable {pull : Pull τ σ} {render : Render σ ρ} {p : τ × ρ}

/-- Nothing is left to be walked where something decides the walk or where its end is. -/
theorem acc_of_zero (h : item pull p.1 0 = none ∨ IsDecisive pull render p 0) :
    Acc (GoesOn pull render) p := by
  refine ⟨_, fun q hq => ?_⟩
  obtain ⟨s, hpull, -, hnone⟩ := hq
  have hitem : item pull p.1 0 = some (.ok s) := by rw [item_zero, hpull]; rfl
  rcases h with hend | ⟨e, herror⟩ | ⟨raster, hpicture⟩
  · rw [hend] at hitem
    cases hitem
  · rw [herror] at hitem
    cases hitem
  · rw [outcome_zero hpull] at hpicture
    exact absurd (Except.ok.inj (Option.some.inj hpicture)) (hnone raster)

/-- A walk comes to an end exactly if its sequence does or has something that decides it. -/
theorem acc_iff :
    Acc (GoesOn pull render) p ↔
      (∃ n, item pull p.1 n = none) ∨ ∃ k, IsDecisive pull render p k := by
  rw [← exists_or]
  constructor
  · intro h
    induction h with
    | intro p _ ih =>
      cases hp : pull p.1 with
      | none => exact ⟨0, .inl (by rw [item_zero, hp]; rfl)⟩
      | some pulled =>
        obtain ⟨it, rest⟩ := pulled
        cases it with
        | error e => exact ⟨0, .inr (.inl ⟨e, by rw [item_zero, hp]; rfl⟩)⟩
        | ok s =>
          by_cases hpicture : ∃ raster, (render s p.2).1 = .ok (some raster)
          · obtain ⟨raster, hr⟩ := hpicture
            exact ⟨0, .inr (.inr ⟨raster, by rw [outcome_zero hp, hr]⟩)⟩
          · -- The walk goes on, so what is found behind this segment is found one later.
            obtain ⟨n, hn⟩ := ih (rest, (render s p.2).2) ⟨s, hp, rfl, not_exists.1 hpicture⟩
            exact ⟨n + 1, by rwa [item_succ, behind_eq hp, isDecisive_succ hp]⟩
  · rintro ⟨n, hn⟩
    induction n generalizing p with
    | zero => exact acc_of_zero hn
    | succ n ih =>
      refine ⟨_, ?_⟩
      rintro ⟨rest, state⟩ ⟨s, hp, rfl, -⟩
      rw [item_succ, behind_eq hp, isDecisive_succ hp] at hn
      exact ih hn

end Ends

/-! ## §3 Runs -/

section Runs

variable {pull : Pull τ σ} {render : Render σ ρ} {p : τ × ρ} (hp : Acc (GoesOn pull render) p)
  (index : ℕ)

theorem run_of_end (h : pull p.1 = none) :
    run pull render ⟨p, hp⟩ index = pure ⟨.ok none, p.1, p.2⟩ := by
  rw [run]
  split
  · rfl
  · next he => cases h.symm.trans he
  · next hs => cases h.symm.trans hs

/-- An error of the file ends a walk, and the renderer is not called. -/
theorem run_of_error {e : DecodeError} {rest : τ} (h : pull p.1 = some (.error e, rest)) :
    run pull render ⟨p, hp⟩ index = pure ⟨.error e, rest, p.2⟩ := by
  rw [run]
  split
  · next hend => cases h.symm.trans hend
  · next he =>
    cases h.symm.trans he
    rfl
  · next hs => cases h.symm.trans hs

variable {s : σ} {rest : τ} (h : pull p.1 = some (.ok s, rest))

include h

theorem run_of_picture {raster : Raster} (hr : (render s p.2).1 = .ok (some raster)) :
    run pull render ⟨p, hp⟩ index = pure ⟨.ok (some raster), rest, (render s p.2).2⟩ := by
  rw [run]
  split
  · next hend => cases h.symm.trans hend
  · next he => cases h.symm.trans he
  · next hs =>
    cases h.symm.trans hs
    split
    · next heq =>
      rw [heq] at hr ⊢
      cases hr
      rfl
    · next heq => rw [heq] at hr; cases hr
    · next heq => rw [heq] at hr; cases hr

/-- A segment that is reported is passed over. -/
theorem run_of_reports {d : Decoded} {event : Event} (hr : (render s p.2).1 = d)
    (hd : Reports index d event) (hq : Acc (GoesOn pull render) (rest, (render s p.2).2)) :
    run pull render ⟨p, hp⟩ index =
      (do Logged.report event; run pull render ⟨_, hq⟩ (index + 1)) := by
  rw [run]
  split
  · next hend => cases h.symm.trans hend
  · next he => cases h.symm.trans he
  · next hs =>
    cases h.symm.trans hs
    cases hd with
    | notRenderable =>
      split
      · next heq => rw [heq] at hr; cases hr
      · next heq => simp only [heq]
      · next heq => rw [heq] at hr; cases hr
    | failed e =>
      split
      · next heq => rw [heq] at hr; cases hr
      · next heq => rw [heq] at hr; cases hr
      · next heq =>
        rw [heq] at hr; cases hr
        simp only [heq]

end Runs

section Passing

variable (pull : Pull τ σ) (render : Render σ ρ) (p : τ × ρ)

/-- The item at a position is a segment that is passed over with a report. -/
def Passed (index i : ℕ) (event : Event) : Prop :=
  ∃ d, outcome pull render p i = some (.ok d) ∧ Reports (index + i) d event

variable {pull render p}

/-- Where an item came to a rendering, a segment was pulled and rendered. -/
theorem exists_pull {d : Decoded} (h : outcome pull render p 0 = some (.ok d)) :
    ∃ s rest, pull p.1 = some (.ok s, rest) ∧ (render s p.2).1 = d := by
  cases hp : pull p.1 with
  | none => simp [outcome, item_zero, hp] at h
  | some pulled =>
    obtain ⟨it, rest⟩ := pulled
    cases it with
    | error e =>
      rw [outcome, item_zero, hp] at h
      cases h
    | ok s =>
      rw [outcome_zero hp] at h
      exact ⟨s, rest, rfl, Except.ok.inj (Option.some.inj h)⟩

/-- **Passing over the first items.** Each leaves a report, and the walk goes on behind them. -/
theorem run_of_passed {n : ℕ}
    (h : ∀ i < n, item pull p.1 i ≠ none ∧ ¬ IsDecisive pull render p i)
    (hp : Acc (GoesOn pull render) p) (index : ℕ) :
    ∃ events, List.Forall₂ (Passed pull render p index) (List.range n) events ∧
      ∃ hq, run pull render ⟨p, hp⟩ index =
        ⟨(run pull render ⟨place pull render p n, hq⟩ (index + n)).value,
          events ++ (run pull render ⟨place pull render p n, hq⟩ (index + n)).entries⟩ := by
  -- The first item changes the place and the index, so the claim is about any of these.
  induction n generalizing p index with
  | zero => exact ⟨[], .nil, hp, rfl⟩
  | succ n ih =>
    obtain ⟨d, event, hd, hreports⟩ :=
      exists_reports (h 0 n.succ_pos).1 (h 0 n.succ_pos).2 index
    obtain ⟨s, rest, hpull, hr⟩ := exists_pull hd
    -- What is reported is no picture, so the walk does go on to the place behind it.
    have hnone : ∀ raster, (render s p.2).1 ≠ .ok (some raster) := by
      rw [hr]
      cases hreports <;> simp
    have hq := hp.inv (y := (rest, (render s p.2).2)) ⟨s, hpull, rfl, hnone⟩
    -- Seen from there, the other items are to be passed over as well.
    have hlater : ∀ i < n, item pull rest i ≠ none ∧
        ¬ IsDecisive pull render (rest, (render s p.2).2) i := by
      intro i hi
      have hi' := h (i + 1) (Nat.succ_lt_succ hi)
      rwa [item_succ, behind_eq hpull, isDecisive_succ hpull] at hi'
    obtain ⟨events, hevents, hq', hrun⟩ := ih hlater hq (index + 1)
    refine ⟨event :: events, ?_, ?_⟩
    · rw [List.range_succ_eq_map, List.forall₂_cons, List.forall₂_map_left_iff]
      refine ⟨⟨d, hd, hreports⟩, hevents.imp fun i event hi => ?_⟩
      obtain ⟨d', hd', hreports'⟩ := hi
      exact ⟨d', (outcome_succ hpull i).trans hd', by rwa [Nat.add_right_comm] at hreports'⟩
    · rw [place_succ hpull]
      refine ⟨hq', ?_⟩
      rw [run_of_reports hp index hpull hr hreports hq, hrun, Nat.add_right_comm]
      rfl

end Passing

/-! ## §4 What is found -/

section Found

variable (pull : Pull τ σ) (render : Render σ ρ) (p : τ × ρ)

/-- A walk has pulled the first `n` items and rendered the segments among them, each once and in
    order, and has reported the first `k` of them, each once and in order. -/
structure Covers (k n : ℕ) (w : Logged (Ended τ ρ)) : Prop where
  rest : w.value.rest = (behind pull)^[n] p.1
  renderer : w.value.renderer = render.given p.2 (segments pull p.1 n)
  reports : List.Forall₂ (Passed pull render p 0) (List.range k) w.entries

variable {pull render p}

/-- The end of a sequence is final. -/
theorem item_eq_none_of_le {t : τ} {n m : ℕ} (h : item pull t n = none) (hm : n ≤ m) :
    item pull t m = none := by
  induction m, hm using Nat.le_induction with
  | base => exact h
  | succ m _ ih =>
    have hend : pull ((behind pull)^[m] t) = none := Option.map_eq_none_iff.1 ih
    have hstay : behind pull ((behind pull)^[m] t) = (behind pull)^[m] t := by rw [behind, hend]
    rw [item, Function.iterate_succ_apply', hstay, hend]
    rfl

theorem item_ne_none_of_isDecisive {i : ℕ} (h : IsDecisive pull render p i) :
    item pull p.1 i ≠ none := by
  rcases h with ⟨e, he⟩ | ⟨raster, hr⟩
  · rw [he]
    exact Option.some_ne_none _
  · intro hnone
    rw [outcome, hnone] at hr
    cases hr

/-- Before the least decisive item there are only segments to be passed over. -/
theorem passed_of_isLeast {k : ℕ} (h : IsLeast {i | IsDecisive pull render p i} k) {i : ℕ}
    (hi : i < k) : item pull p.1 i ≠ none ∧ ¬ IsDecisive pull render p i := by
  -- An end before the decisive item would have been final.
  refine ⟨fun hnone => ?_, fun hdec => absurd (h.2 hdec) (Nat.not_le.2 hi)⟩
  exact item_ne_none_of_isDecisive h.1 (item_eq_none_of_le hnone hi.le)

/-- An error is pulled but leaves the renderer alone. -/
theorem place_succ_of_error {k : ℕ} {e : DecodeError} {rest : τ}
    (h : pull (place pull render p k).1 = some (.error e, rest)) :
    place pull render p (k + 1) = (rest, (place pull render p k).2) := by
  have hitem : item pull p.1 k = some (.error e) := congrArg (Option.map Prod.fst) h
  rw [place, Function.iterate_succ_apply', segments_succ, hitem]
  exact Prod.ext (behind_eq h) (by simp [Except.toOption, place])

theorem place_succ_of_ok {k : ℕ} {s : σ} {rest : τ}
    (h : pull (place pull render p k).1 = some (.ok s, rest)) :
    place pull render p (k + 1) = (rest, (render s (place pull render p k).2).2) := by
  have hitem : item pull p.1 k = some (.ok s) := congrArg (Option.map Prod.fst) h
  rw [place, Function.iterate_succ_apply', segments_succ, hitem]
  exact Prod.ext (behind_eq h) (by simp [Except.toOption, place, Render.given])

theorem outcome_of_error {i : ℕ} {e : DecodeError} (h : item pull p.1 i = some (.error e)) :
    outcome pull render p i = some (.error e) := by
  rw [outcome, h]
  rfl

/-- A decisive item comes to something. -/
theorem exists_outcome {i : ℕ} (h : IsDecisive pull render p i) :
    ∃ o, outcome pull render p i = some o := by
  rcases h with ⟨e, he⟩ | ⟨raster, hr⟩
  · exact ⟨_, outcome_of_error he⟩
  · exact ⟨_, hr⟩

theorem not_isDecisive_of_outcome {i : ℕ} {d : Decoded}
    (h : outcome pull render p i = some (.ok d)) (hd : ∀ raster, d ≠ .ok (some raster)) :
    ¬ IsDecisive pull render p i := by
  rintro (⟨e, he⟩ | ⟨raster, hr⟩)
  · cases (outcome_of_error he).symm.trans h
  · exact hd raster (Except.ok.inj (Option.some.inj (h.symm.trans hr)))

theorem level_of_passed {index : ℕ} {l : List ℕ} {events : List Event}
    (h : List.Forall₂ (Passed pull render p index) l events) :
    ∀ event ∈ events, event.level = .debug := by
  induction h with
  | nil => exact fun event hevent => absurd hevent List.not_mem_nil
  | cons hpassed _ ih =>
    obtain ⟨d, -, hreports⟩ := hpassed
    refine List.forall_mem_cons.2 ⟨?_, ih⟩
    cases hreports <;> rfl

end Found

section FirstPicture

variable {pull : Pull τ σ} {render : Render σ ρ} {start : τ} {state : ρ}
  (ends : Acc (GoesOn pull render) (start, state))

/-- The walk up to the item that decides it, which is what is found. -/
theorem firstPicture_of_isLeast {k : ℕ}
    (h : IsLeast {i | IsDecisive pull render (start, state) i} k) :
    Covers pull render (start, state) k (k + 1) (firstPicture pull render start state ends) ∧
      ∀ o, outcome pull render (start, state) k = some o →
        (firstPicture pull render start state ends).value.found = o.bind id := by
  obtain ⟨events, hevents, hq, hrun⟩ := run_of_passed (fun i => passed_of_isLeast h) ends 0
  rw [firstPicture, hrun]
  -- The item is an error, which is pulled only, or a picture, which is rendered too.
  rcases h.1 with ⟨e, he⟩ | ⟨raster, hr⟩
  · obtain ⟨⟨it, rest⟩, hpull, rfl⟩ := Option.map_eq_some_iff.1 he
    have hplace : place pull render (start, state) (k + 1) =
        (rest, (place pull render (start, state) k).2) := place_succ_of_error hpull
    rw [run_of_error hq _ hpull]
    refine ⟨⟨congrArg Prod.fst hplace.symm, congrArg Prod.snd hplace.symm, ?_⟩, fun o ho => ?_⟩
    · simpa using hevents
    · rw [outcome_of_error he] at ho
      cases ho
      rfl
  · obtain ⟨s, rest, hpull, hs⟩ := exists_pull (p := place pull render (start, state) k) hr
    have hplace := place_succ_of_ok hpull
    rw [run_of_picture hq _ hpull hs]
    refine ⟨⟨congrArg Prod.fst hplace.symm, congrArg Prod.snd hplace.symm, ?_⟩, fun o ho => ?_⟩
    · simpa using hevents
    · rw [hr] at ho
      cases ho
      rfl

/-- The walk over a sequence that comes to its end before anything decides it. -/
theorem firstPicture_of_forall_not {n : ℕ} (hend : IsLeast {i | item pull start i = none} n)
    (h : ∀ i, ¬ IsDecisive pull render (start, state) i) :
    Covers pull render (start, state) n n (firstPicture pull render start state ends) ∧
      (firstPicture pull render start state ends).value.found = .ok none := by
  have hpassed : ∀ i < n, item pull start i ≠ none ∧ ¬ IsDecisive pull render (start, state) i :=
    fun i hi => ⟨fun hnone => absurd (hend.2 hnone) (Nat.not_le.2 hi), h i⟩
  obtain ⟨events, hevents, hq, hrun⟩ := run_of_passed hpassed ends 0
  have hpull : pull (place pull render (start, state) n).1 = none :=
    Option.map_eq_none_iff.1 hend.1
  rw [firstPicture, hrun, run_of_end hq _ hpull]
  exact ⟨⟨rfl, rfl, by simpa using hevents⟩, rfl⟩

include ends

/-- Either something decides a walk, and then something does first, or its sequence ends. -/
theorem exists_isLeast :
    (∃ k, IsLeast {i | IsDecisive pull render (start, state) i} k) ∨
      (∀ i, ¬ IsDecisive pull render (start, state) i) ∧
        ∃ n, IsLeast {i | item pull start i = none} n := by
  classical
  -- The positions are well-ordered, so the first of either kind is found by search.
  by_cases h : ∃ k, IsDecisive pull render (start, state) k
  · exact .inl ⟨_, Nat.isLeast_find h⟩
  · have hend : ∃ n, item pull start n = none := (acc_iff.1 ends).resolve_right h
    exact .inr ⟨not_exists.1 h, _, Nat.isLeast_find hend⟩

/-- An error that a walk ends with is one of the file. -/
theorem exists_item_of_found {e : DecodeError}
    (h : (firstPicture pull render start state ends).value.found = .error e) :
    ∃ k, item pull start k = some (.error e) := by
  -- The two other ways to end do not find an error.
  rcases exists_isLeast ends with ⟨k, hk⟩ | ⟨hnone, n, hn⟩
  · rcases hk.1 with ⟨e', he'⟩ | ⟨raster, hr⟩
    · rw [(firstPicture_of_isLeast ends hk).2 _ (outcome_of_error he')] at h
      cases h
      exact ⟨k, he'⟩
    · rw [(firstPicture_of_isLeast ends hk).2 _ hr] at h
      cases h
  · rw [(firstPicture_of_forall_not ends hn hnone).2] at h
    cases h

theorem level_of_mem_entries :
    ∀ event ∈ (firstPicture pull render start state ends).entries, event.level = .debug := by
  rcases exists_isLeast ends with ⟨k, hk⟩ | ⟨hnone, n, hn⟩
  · exact level_of_passed (firstPicture_of_isLeast ends hk).1.reports
  · exact level_of_passed (firstPicture_of_forall_not ends hn hnone).1.reports

end FirstPicture

section Replaced

variable {τ' : Type} {pull : Pull τ σ} {pull' : Pull τ' σ} {render : Render σ ρ} {t : τ} {t' : τ'}
  {state : ρ} {k : ℕ} (hitem : ∀ i ≤ k, item pull' t' i = item pull t i)

include hitem

theorem segments_congr {n : ℕ} (hn : n ≤ k + 1) : segments pull' t' n = segments pull t n := by
  refine List.filterMap_congr fun i hi => ?_
  rw [hitem i (Nat.le_of_lt_succ (Nat.lt_of_lt_of_le (List.mem_range.1 hi) hn))]

/-- What comes of an item depends on no item behind it. -/
theorem outcome_congr {i : ℕ} (hi : i ≤ k) :
    outcome pull' render (t', state) i = outcome pull render (t, state) i := by
  rw [outcome, outcome, hitem i hi, place, place, segments_congr hitem (Nat.le_succ_of_le hi)]

theorem isDecisive_congr {i : ℕ} (hi : i ≤ k) :
    IsDecisive pull' render (t', state) i ↔ IsDecisive pull render (t, state) i := by
  rw [IsDecisive, IsDecisive, outcome_congr hitem hi, hitem i hi]

/-- Sequences that agree up to the least decisive item agree about which it is. -/
theorem isLeast_congr (h : IsLeast {i | IsDecisive pull render (t, state) i} k) :
    IsLeast {i | IsDecisive pull' render (t', state) i} k := by
  refine ⟨(isDecisive_congr hitem le_rfl).2 h.1, fun i hi => ?_⟩
  -- An earlier position is one of those that the sequences agree about.
  rcases Nat.le_total k i with hki | hik
  · exact hki
  · exact h.2 ((isDecisive_congr hitem hik).1 hi)

theorem passed_congr {events : List Event}
    (h : List.Forall₂ (Passed pull' render (t', state) 0) (List.range k) events) :
    List.Forall₂ (Passed pull render (t, state) 0) (List.range k) events := by
  have hlt : ∀ i ∈ List.range k, i ≤ k := fun i hi => (List.mem_range.1 hi).le
  refine ((List.forall₂_and_left _ _).2 ⟨hlt, h⟩).imp fun i event hi => ?_
  obtain ⟨hik, d, hd, hreports⟩ := hi
  exact ⟨d, (outcome_congr hitem hik).symm.trans hd, hreports⟩

end Replaced

/-- A segment gives one report. -/
theorem passed_rightUnique (pull : Pull τ σ) (render : Render σ ρ) (p : τ × ρ) (index : ℕ) :
    Relator.RightUnique (Passed pull render p index) := by
  rintro i event event' ⟨d, hd, hreports⟩ ⟨d', hd', hreports'⟩
  obtain rfl : d = d' := by simpa [hd] using hd'
  cases hreports <;> cases hreports' <;> rfl

/-! ## §5 Renderers that remember -/

/-- The renderer that also keeps a list of the segments it is given. -/
def Render.recording (render : Render σ ρ) : Render σ (ρ × List σ) := fun s state =>
  ((render s state.1).1, (render s state.1).2, state.2 ++ [s])

/-- Keeping the list changes nothing about rendering, and the list is what was given. -/
theorem given_recording (render : Render σ ρ) (state : ρ) (seen segments : List σ) :
    render.recording.given (state, seen) segments =
      (render.given state segments, seen ++ segments) := by
  induction segments generalizing state seen with
  | nil => simp [Render.given]
  | cons s segments ih =>
    have hstep := ih (render s state).2 (seen ++ [s])
    rw [List.append_assoc] at hstep
    exact hstep

section Recording

variable {pull : Pull τ σ} {render : Render σ ρ} {t : τ} {state : ρ}

theorem outcome_recording (i : ℕ) :
    outcome pull render.recording (t, state, []) i = outcome pull render (t, state) i := by
  rw [outcome, outcome, place, place, given_recording]
  rfl

theorem isDecisive_recording {i : ℕ} :
    IsDecisive pull render.recording (t, state, []) i ↔ IsDecisive pull render (t, state) i := by
  rw [IsDecisive, IsDecisive, outcome_recording]

end Recording

/-- **The first picture before the first error.** A walk comes to an end exactly if its sequence
    does or if something decides it: an error of the file, or a segment that renders as the
    renderer is left by all segments before it. The least position of that kind settles what is
    found, which is that error or that picture. Everything up to it was pulled and nothing
    behind it, so that this may be anything; the segments among that were rendered, once each and
    in order, and each that was passed over left one report with its position. Where nothing
    decides the walk it ends with the sequence, without a picture. An error that a walk ends with
    is always one of the file. -/
theorem firstPicture_least (pull : Pull τ σ) (render : Render σ ρ) (start : τ) (state : ρ) :
    let p := (start, state)
    (Acc (GoesOn pull render) p ↔
      (∃ n, item pull start n = none) ∨ ∃ k, IsDecisive pull render p k) ∧
    ∀ ends : Acc (GoesOn pull render) p,
      let w := firstPicture pull render start state ends
      (∀ k, IsLeast {i | IsDecisive pull render p i} k →
        (∀ e, item pull start k = some (.error e) → w.value.found = .error e) ∧
        (∀ raster, outcome pull render p k = some (.ok (.ok (some raster))) →
          w.value.found = .ok (some raster)) ∧
        Covers pull render p k (k + 1) w ∧
        (∃ ends', (firstPicture pull render.recording start (state, []) ends').value.renderer.2 =
          segments pull start (k + 1)) ∧
        ∀ (τ' : Type) (pull' : Pull τ' σ) (start' : τ'),
          (∀ i ≤ k, item pull' start' i = item pull start i) →
          ∃ ends', let w' := firstPicture pull' render start' state ends'
            w'.value.found = w.value.found ∧ w'.value.renderer = w.value.renderer ∧
              w'.entries = w.entries) ∧
      (∀ n, IsLeast {i | item pull start i = none} n → (∀ i, ¬ IsDecisive pull render p i) →
        w.value.found = .ok none ∧ Covers pull render p n n w) ∧
      (∀ e, w.value.found = .error e → ∃ k, item pull start k = some (.error e)) ∧
      ∀ event ∈ w.entries, event.level = .debug := by
  intro p
  refine ⟨acc_iff, fun ends => ?_⟩
  intro w
  refine ⟨fun k hk => ?_, fun n hn hnone => ?_, fun e => exists_item_of_found ends,
    level_of_mem_entries ends⟩
  · obtain ⟨hcovers, hfound⟩ := firstPicture_of_isLeast ends hk
    refine ⟨fun e he => hfound _ (outcome_of_error he), fun raster hr => hfound _ hr, hcovers,
      ?_, ?_⟩
    -- The renderer that remembers tells which segments were rendered.
    · have hk' : IsLeast {i | IsDecisive pull render.recording (start, state, []) i} k := by
        simpa only [isDecisive_recording] using hk
      have ends' := acc_iff.2 (.inr ⟨k, hk'.1⟩)
      refine ⟨ends', ?_⟩
      rw [(firstPicture_of_isLeast ends' hk').1.renderer, given_recording]
      rfl
    -- Another sequence that agrees up to the decisive item is decided by that item too.
    · intro τ' pull' start' hitem
      have hk' := isLeast_congr hitem hk
      have ends' := acc_iff.2 (.inr ⟨k, hk'.1⟩)
      obtain ⟨hcovers', hfound'⟩ := firstPicture_of_isLeast ends' hk'
      obtain ⟨o, ho⟩ := exists_outcome hk.1
      refine ⟨ends', ?_, ?_, ?_⟩
      · rw [hfound o ho, hfound' o ((outcome_congr hitem le_rfl).trans ho)]
      · rw [hcovers.renderer, hcovers'.renderer, segments_congr hitem le_rfl]
      · exact List.right_unique_forall₂' (passed_rightUnique pull render p 0)
          (passed_congr hitem hcovers'.reports) hcovers.reports
  · obtain ⟨hcovers, hfound⟩ := firstPicture_of_forall_not ends hn hnone
    exact ⟨hfound, hcovers⟩

/-- A renderer that fails at first, then finds nothing and makes a picture when it is called for
    the third time: a walk over an endless sequence ends there, one over a shorter list finds
    nothing, and an error of the file that comes earlier is what is found. -/
theorem third_call_ends_endless_walk :
    let grey : Raster := ⟨1, 1, 3, [7, 7, 7], by decide, by decide, by decide⟩
    let endless : Pull ℕ ℕ := fun n => some (.ok n, n + 1)
    let render : Render ℕ ℕ := fun _ calls =>
      (if calls = 0 then .error (.render "bad band")
        else if calls = 1 then .ok none else .ok (some grey), calls + 1)
    let broken : List (Except DecodeError ℕ) := [.ok 8, .error (.malformed "cut"), .ok 9]
    IsLeast {i | IsDecisive endless render (0, 0) i} 2 ∧
      IsLeast {i | IsDecisive pullList render (broken, 0) i} 1 ∧
      IsLeast {i | item pullList (broken.take 1) i = none} 1 ∧
      (∃ ends, let w := firstPicture endless render 0 0 ends
        w.value.found = .ok (some grey) ∧ w.value.rest = 3 ∧ w.value.renderer = 3 ∧
          w.entries = [.segmentFailed 0 "Segment render failed: bad band",
            .segmentNotRenderable 1]) ∧
      (firstOfList render broken 0).value.found = .error (.malformed "cut") ∧
      (firstOfList render broken 0).value.renderer = 1 ∧
      (firstOfList render (broken.take 1) 0).value.found = .ok none := by
  intro grey endless render broken
  have hzero : outcome endless render (0, 0) 0 = some (.ok (.error (.render "bad band"))) := rfl
  have hone : outcome endless render (0, 0) 1 = some (.ok (.ok none)) := rfl
  have htwo : outcome endless render (0, 0) 2 = some (.ok (.ok (some grey))) := rfl
  have hcut : outcome pullList render (broken, 0) 0 = some (.ok (.error (.render "bad band"))) :=
    rfl
  have hendless : IsLeast {i | IsDecisive endless render (0, 0) i} 2 := by
    refine ⟨.inr ⟨grey, htwo⟩, fun i hi => Nat.le_of_not_lt fun hlt => ?_⟩
    obtain rfl | rfl : i = 0 ∨ i = 1 := by omega
    · exact not_isDecisive_of_outcome hzero (by simp) hi
    · exact not_isDecisive_of_outcome hone (by simp) hi
  have hbroken : IsLeast {i | IsDecisive pullList render (broken, 0) i} 1 := by
    refine ⟨.inl ⟨_, rfl⟩, fun i hi => Nat.le_of_not_lt fun hlt => ?_⟩
    obtain rfl := Nat.lt_one_iff.1 hlt
    exact not_isDecisive_of_outcome hcut (by simp) hi
  have hend : IsLeast {i | item pullList (broken.take 1) i = none} 1 := by
    refine ⟨rfl, fun i hi => Nat.le_of_not_lt fun hlt => ?_⟩
    obtain rfl := Nat.lt_one_iff.1 hlt
    cases hi
  have hnone : ∀ i, ¬ IsDecisive pullList render (broken.take 1, 0) i := by
    intro i hi
    rcases Nat.eq_zero_or_pos i with rfl | hpos
    · exact not_isDecisive_of_outcome (d := .error (.render "bad band")) rfl (by simp) hi
    · exact item_ne_none_of_isDecisive hi (item_eq_none_of_le hend.1 hpos)
  obtain ⟨hacc, hwalk⟩ := firstPicture_least endless render 0 0
  have ends := hacc.2 (.inr ⟨2, hendless.1⟩)
  obtain ⟨-, hpicture, hcovers, -, -⟩ := (hwalk ends).1 2 hendless
  obtain ⟨herror, -, hcovers', -, -⟩ :=
    ((firstPicture_least pullList render broken 0).2 (acc_pullList _ _)).1 1 hbroken
  obtain ⟨hnothing, -⟩ :=
    ((firstPicture_least pullList render (broken.take 1) 0).2 (acc_pullList _ _)).2.1 1 hend hnone
  refine ⟨hendless, hbroken, hend, ⟨ends, hpicture grey htwo, hcovers.rest, hcovers.renderer, ?_⟩,
    herror _ rfl, hcovers'.renderer, hnothing⟩
  refine List.right_unique_forall₂' (passed_rightUnique endless render (0, 0) 0) hcovers.reports ?_
  exact .cons ⟨_, hzero, .failed _⟩ (.cons ⟨_, hone, .notRenderable⟩ .nil)

end Quicklook.Walk
