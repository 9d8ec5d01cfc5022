import Quicklook.Decode.Basic

/-!
# The walk over the segments of a file

A file holds segments, some of which are pictures. The walk pulls them one by one and stops
at the first that renders. A segment that holds no picture, or whose picture cannot be made,
is reported and passed over; an error of the file itself ends the walk with that error.

Nothing is pulled that is not needed, so the sequence of segments may well be endless. What
the walk asks for is only that it does not go on for ever: that the relation between one
place of the walk and the next is accessible from its start. A sequence that gets shorter
with every segment is (`acc_of_measure`), and so is an endless one with a picture or an
error in it.
-/

namespace Quicklook.Walk

variable {τ σ ρ : Type}

/-! ## §1 Places of the walk -/

/-- How segments are pulled: the next one, or an error of the file, and where the sequence
    goes on; nothing at its end. -/
abbrev Pull (τ σ : Type) := τ → Option (Except DecodeError σ × τ)

/-- How a segment is rendered, by a renderer with a state of its own. -/
abbrev Render (σ ρ : Type) := σ → ρ → Decoded × ρ

/-- The walk at `before` passes over a segment and goes on at `after`. A place is a place in
    the sequence and a state of the renderer. -/
def GoesOn (pull : Pull τ σ) (render : Render σ ρ) (after before : τ × ρ) : Prop :=
  ∃ s, pull before.1 = some (.ok s, after.1) ∧ (render s before.2).2 = after.2 ∧
    ∀ raster, (render s before.2).1 ≠ .ok (some raster)

/-- The places from which a walk comes to an end. -/
abbrev Place (pull : Pull τ σ) (render : Render σ ρ) :=
  { p : τ × ρ // Acc (GoesOn pull render) p }

/-- Going on is well-founded among the places from which a walk comes to an end. -/
instance place_wf (pull : Pull τ σ) (render : Render σ ρ) :
    WellFoundedRelation (Place pull render) where
  rel a b := GoesOn pull render a.1 b.1
  wf := by
    refine ⟨fun ⟨p, hp⟩ => ?_⟩
    induction hp with
    | intro p _ ih => exact ⟨_, fun ⟨q, _⟩ hq => ih q hq⟩

/-- A walk comes to an end wherever the sequence gets shorter with every segment. -/
theorem acc_of_measure {pull : Pull τ σ} {render : Render σ ρ} (size : τ → Nat)
    (h : ∀ t s t', pull t = some (.ok s, t') → size t' < size t) (p : τ × ρ) :
    Acc (GoesOn pull render) p := by
  -- The renderer's state plays no part: only the sequence has to get shorter.
  suffices ∀ n t r, size t < n → Acc (GoesOn pull render) (t, r) from
    this _ p.1 p.2 (Nat.lt_succ_self _)
  intro n
  induction n with
  | zero => intro t r hn; omega
  | succ n ih =>
    intro t r hn
    refine ⟨_, fun (t', r') ⟨s, hs, _⟩ => ih t' r' ?_⟩
    have := h t s t' hs
    omega

/-! ## §2 The walk -/

/-- The end of a walk: what it found, and where it left the sequence and the renderer. -/
structure Ended (τ ρ : Type) where
  /-- The first picture, or the error of the file. -/
  found : Decoded
  rest : τ
  renderer : ρ

/-- The walk from a place on; `index` counts the segments passed over so far. -/
def run (pull : Pull τ σ) (render : Render σ ρ) (place : Place pull render) (index : Nat) :
    Logged (Ended τ ρ) :=
  match hp : pull place.1.1 with
  | none => pure ⟨.ok none, place.1.1, place.1.2⟩
  | some (.error e, rest) => pure ⟨.error e, rest, place.1.2⟩
  | some (.ok segment, rest) =>
    match hr : render segment place.1.2 with
    | (.ok (some raster), state) => pure ⟨.ok (some raster), rest, state⟩
    -- Both ways of passing a segment over go on behind it, with the renderer as it was left.
    | (.ok none, state) => do
      Logged.report (.segmentNotRenderable index)
      run pull render
        ⟨(rest, state), place.2.inv ⟨segment, hp, by rw [hr], by rw [hr]; simp⟩⟩ (index + 1)
    | (.error e, state) => do
      Logged.report (.segmentFailed index e.message)
      run pull render
        ⟨(rest, state), place.2.inv ⟨segment, hp, by rw [hr], by rw [hr]; simp⟩⟩ (index + 1)
termination_by place
decreasing_by
  · exact ⟨segment, hp, by rw [hr], by rw [hr]; simp⟩
  · exact ⟨segment, hp, by rw [hr], by rw [hr]; simp⟩

/-- The first segment that renders, walking from `start`. -/
def firstPicture (pull : Pull τ σ) (render : Render σ ρ) (start : τ) (state : ρ)
    (ends : Acc (GoesOn pull render) (start, state)) : Logged (Ended τ ρ) :=
  run pull render ⟨(start, state), ends⟩ 0

/-! ## §3 Lists of segments -/

/-- Pulls from a list. -/
def pullList : Pull (List (Except DecodeError σ)) σ
  | [] => none
  | item :: rest => some (item, rest)

/-- A walk over a list comes to an end. -/
theorem acc_pullList (render : Render σ ρ) (p : List (Except DecodeError σ) × ρ) :
    Acc (GoesOn pullList render) p := by
  refine acc_of_measure List.length (fun t s t' h => ?_) p
  cases t with
  | nil => simp [pullList] at h
  | cons item rest =>
    simp only [pullList, Option.some.injEq, Prod.mk.injEq] at h
    simp [h.2]

/-- The first segment of a list that renders. -/
def firstOfList (render : Render σ ρ) (segments : List (Except DecodeError σ)) (state : ρ) :
    Logged (Ended (List (Except DecodeError σ)) ρ) :=
  firstPicture pullList render segments state (acc_pullList render _)

end Quicklook.Walk
