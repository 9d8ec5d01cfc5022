import Mathlib.Data.List.Basic
import Quicklook.Pipeline.Basic

/-!
# Stages are isolated

All stages work on one raster and go through one encoder, and yet none sees what came of
another. A stage is described here by its own request and by what the encoder itself says to
that alone; what a pipeline gives is then read off these answers role by role.

* `encode_request`: the one call of a stage, its note and its answer together
* `value_renderAll`: the outcome, as two selections from the answers of the enabled roles
* `made_renderAll`, `failed_renderAll`: which roles succeed and which fail
* `hasEntry_renderAll`: the entry of an enabled role is what the encoder's answer gives
* `renderAll_isolated`: every enabled stage leaves one entry, which is that of its own answer, the
  encoder is called once for each, and two pipelines that agree on one stage agree on its entry
-/

namespace Quicklook

/-! ## §1 Roles of an outcome -/

/-- Whether renditions in the first role are made before those in the second. -/
def Role.Before (a b : Role) : Prop :=
  a.rank < b.rank

theorem Role.pairwise_all : Role.all.Pairwise Role.Before := by
  simp [Role.all, Role.Before, Role.rank]

theorem Role.count_all (role : Role) : Role.all.count role = 1 := by
  cases role <;> rfl

theorem Role.mem_all (role : Role) : role ∈ Role.all := by
  cases role <;> simp [Role.all]

namespace Outcome

/-- The roles that succeeded, in order. -/
def made (o : Outcome) : List Role :=
  o.renditions.map Rendition.role

/-- The roles that failed, in order. -/
def failed (o : Outcome) : List Role :=
  o.failures.map Failure.role

/-- The entry of a role is what an answer of an encoder gives: of a file the rendition, named after
    the title, and of an error the failure with its text. There is no entry of the other kind. -/
def HasEntry (o : Outcome) (role : Role) (title : String) : Except EncodeError Bytes → Prop
  | .ok content =>
    o.rendition? role = some (Rendition.make role title content) ∧ o.failure? role = Option.none
  | .error e => o.rendition? role = Option.none ∧ o.failure? role = some ⟨role, e.message⟩

end Outcome

section Entries

variable {α : Type} {entry : Role → Option α} {roleOf : α → Role}

/-- Entries that are selected by roles have the roles for which there are any. -/
private theorem map_role_filterMap (hrole : ∀ role a, entry role = some a → roleOf a = role)
    (roles : List Role) :
    (roles.filterMap entry).map roleOf = roles.filter fun role => (entry role).isSome := by
  induction roles with
  | nil => rfl
  | cons r rs ih =>
    cases he : entry r with
    | none => simp [he, ih]
    | some a => simp [he, ih, hrole r a he]

/-- The first entry in a role is the one that was selected for it. -/
private theorem find?_role_filterMap (hrole : ∀ role a, entry role = some a → roleOf a = role)
    (role : Role) (roles : List Role) :
    (roles.filterMap entry).find? (roleOf · == role) =
      if role ∈ roles then entry role else none := by
  induction roles with
  | nil => rfl
  | cons r rs ih =>
    rw [List.filterMap_cons]
    cases he : entry r with
    | none =>
      rw [ih]
      -- Entries of other roles are passed over.
      by_cases hr : role = r
      · subst hr
        simp [he]
      · simp [hr]
    | some a =>
      have ha := hrole r a he
      by_cases hr : role = r
      · subst hr
        simp [he, ha]
      · have hne : (roleOf a == role) = false := by
          rw [ha]
          exact beq_eq_false_iff_ne.2 (Ne.symm hr)
        simp [hne, ih, hr]

end Entries

namespace Pipeline

variable (p : Pipeline)

/-! ## §2 One stage -/

/-- What the encoder is asked for in a role. -/
def call (raster : Raster) : Role → Rendition.Request
  | .thumbnail => .boxed Box.thumbnail
  | .overview => .boxed (raster.overviewBox p.settings.rendering.effectiveSide.value)
  | .original => .lossy Jp2.Profile.lossy

/-- What the encoder itself says in a role. -/
def answer (raster : Raster) : Role → Except EncodeError Bytes
  | .thumbnail => p.encoder.boxed raster Box.thumbnail
  | .overview =>
    p.encoder.boxed raster (raster.overviewBox p.settings.rendering.effectiveSide.value)
  | .original => p.encoder.lossy raster Jp2.Profile.lossy

/-- The roles that are enabled, in the order of the stages. -/
def stages : List Role :=
  Role.all.filter p.enabled

/-- The rendition that an answer gives. -/
def made? (raster : Raster) (title : String) (role : Role) : Option Rendition :=
  match p.answer raster role with
  | .ok content => some (Rendition.make role title content)
  | .error _ => none

/-- The failure that an answer gives. -/
def failed? (raster : Raster) (role : Role) : Option Failure :=
  match p.answer raster role with
  | .ok _ => none
  | .error e => some ⟨role, e.message⟩

/-- Whether an answer is a file. -/
def succeeds (raster : Raster) (role : Role) : Bool :=
  (p.answer raster role).isOk

theorem role_of_made? (raster : Raster) (title : String) (role : Role) (r : Rendition)
    (h : p.made? raster title role = some r) : r.role = role := by
  unfold made? at h
  split at h
  · rw [← Option.some.inj h]
    rfl
  · exact absurd h (by simp)

theorem role_of_failed? (raster : Raster) (role : Role) (f : Failure)
    (h : p.failed? raster role = some f) : f.role = role := by
  unfold failed? at h
  split at h
  · exact absurd h (by simp)
  · rw [← Option.some.inj h]

theorem isSome_made? (raster : Raster) (title : String) (role : Role) :
    (p.made? raster title role).isSome = p.succeeds raster role := by
  unfold made? succeeds
  cases p.answer raster role <;> rfl

theorem isSome_failed? (raster : Raster) (role : Role) :
    (p.failed? raster role).isSome = ! p.succeeds raster role := by
  unfold failed? succeeds
  cases p.answer raster role <;> rfl

/-- The call of a stage is noted once, and it is answered by the encoder itself. -/
theorem encode_request (raster : Raster) (role : Role) :
    p.encode raster (Rendition.request role raster (p.side role).value) =
      ⟨p.answer raster role, [.encoded raster (p.call raster role)]⟩ := by
  -- Two stages ask for a box and the third for a lossy file.
  cases role with
  | thumbnail => exact p.encode_boxed raster Box.thumbnail
  | overview => exact p.encode_boxed raster _
  | original => exact p.encode_lossy raster Jp2.Profile.lossy

/-- A stage gives what the encoder answers to its own request. -/
theorem value_render (raster : Raster) (title : String) (role : Role) :
    (p.render raster title role).value =
      ((p.answer raster role).map (Rendition.make role title)).mapError EncodeError.message := by
  simp only [render, Journal.value_bind, encode_request]
  cases p.answer raster role <;> rfl

/-- A stage calls the encoder once. -/
theorem requests_render (raster : Raster) (title : String) (role : Role) :
    (p.render raster title role).requests = [(raster, p.call raster role)] := by
  have hside : (p.side role).requests = [] := by
    cases role
    · rfl
    · exact Traced.requests_ofLogged _
    · rfl
  -- A report of a failure is the only note besides that of the call.
  simp only [render, Traced.requests_bind, hside, encode_request, List.nil_append]
  cases p.answer raster role <;> rfl

/-- A stage adds its entry at the end of one of the two lists. -/
private theorem add_render (raster : Raster) (title : String) (o : Outcome) (role : Role) :
    o.add role (p.render raster title role).value =
      ⟨o.renditions ++ (p.made? raster title role).toList,
        o.failures ++ (p.failed? raster role).toList⟩ := by
  rw [value_render]
  cases h : p.answer raster role with
  | ok content => simp [Except.map, Except.mapError, Outcome.add, made?, failed?, h]
  | error e => simp [Except.map, Except.mapError, Outcome.add, made?, failed?, h]

/-! ## §3 All stages -/

/-- What the stages add to an outcome depends on their own answers and on nothing in it. -/
theorem value_renderRoles (raster : Raster) (title : String) (o : Outcome)
    (roles : List Role) :
    (p.renderRoles raster title o roles).value =
      ⟨o.renditions ++ roles.filterMap (p.made? raster title),
        o.failures ++ roles.filterMap (p.failed? raster)⟩ := by
  -- The outcome grows from stage to stage, so the claim is about any outcome so far.
  induction roles generalizing o with
  | nil => simp [renderRoles]
  | cons role roles ih =>
    simp only [renderRoles, Journal.value_bind]
    rw [ih, add_render, List.filterMap_cons, List.filterMap_cons]
    -- Each stage adds to one list and leaves the other alone.
    cases p.made? raster title role <;> cases p.failed? raster role <;> simp

/-- Every stage calls once, in the order of the stages. -/
theorem requests_renderRoles (raster : Raster) (title : String) (o : Outcome)
    (roles : List Role) :
    (p.renderRoles raster title o roles).requests =
      roles.map fun role => (raster, p.call raster role) := by
  induction roles generalizing o with
  | nil => rfl
  | cons role roles ih =>
    simp only [renderRoles, Traced.requests_bind, requests_render, ih]
    rfl

/-- The outcome as two selections from the answers of the enabled roles. -/
theorem value_renderAll (raster : Raster) (title : String) :
    (p.renderAll raster title).value =
      ⟨p.stages.filterMap (p.made? raster title), p.stages.filterMap (p.failed? raster)⟩ :=
  p.value_renderRoles raster title .none p.stages

/-- The roles that succeed are those whose answers are files. -/
theorem made_renderAll (raster : Raster) (title : String) :
    (p.renderAll raster title).value.made = p.stages.filter (p.succeeds raster) := by
  rw [value_renderAll, Outcome.made, map_role_filterMap (p.role_of_made? raster title)]
  simp only [isSome_made?]

theorem failed_renderAll (raster : Raster) (title : String) :
    (p.renderAll raster title).value.failed = p.stages.filter (! p.succeeds raster ·) := by
  rw [value_renderAll, Outcome.failed, map_role_filterMap (p.role_of_failed? raster)]
  simp only [isSome_failed?]

theorem count_stages (role : Role) :
    p.stages.count role = if p.enabled role then 1 else 0 := by
  by_cases h : p.enabled role = true
  · rw [stages, List.count_filter h, Role.count_all, if_pos h]
  · rw [if_neg h]
    exact List.count_eq_zero.2 fun hm => h (List.mem_filter.1 hm).2

/-- Every role has as many entries in an outcome as it has stages: one or none. -/
theorem count_made_add_count_failed (raster : Raster) (title : String) (role : Role) :
    (p.renderAll raster title).value.made.count role +
        (p.renderAll raster title).value.failed.count role =
      if p.enabled role then 1 else 0 := by
  -- Every stage either succeeds or fails, so the two counts add up.
  rw [made_renderAll, failed_renderAll, ← count_stages]
  exact (List.countP_eq_countP_filter_add p.stages (· == role) (p.succeeds raster)).symm

theorem pairwise_stages : p.stages.Pairwise Role.Before :=
  Role.pairwise_all.filter p.enabled

/-- All calls of the encoder. -/
theorem requests_renderAll (raster : Raster) (title : String) :
    (p.renderAll raster title).requests =
      (raster, .boxed Box.thumbnail) ::
        ((if p.settings.rendering.createOverview then
            [(raster, .boxed (raster.overviewBox p.settings.rendering.effectiveSide.value))]
          else []) ++
        (if p.settings.rendering.storeOriginal then [(raster, .lossy Jp2.Profile.lossy)]
          else [])) := by
  have h : (p.renderAll raster title).requests =
      (Role.all.filter p.enabled).map fun role => (raster, p.call raster role) :=
    p.requests_renderRoles raster title .none _
  rw [h]
  -- The flags decide which calls follow the first one.
  cases ho : p.settings.rendering.createOverview <;>
    cases hs : p.settings.rendering.storeOriginal <;>
    simp [Role.all, List.filter, enabled, ho, hs, call]

/-! ## §4 Entries by role -/

private theorem mem_stages (role : Role) : role ∈ p.stages ↔ p.enabled role = true := by
  simp [stages, Role.mem_all]

/-- The rendition in a role is that of the role's own answer. -/
theorem rendition?_renderAll (raster : Raster) (title : String) (role : Role) :
    (p.renderAll raster title).value.rendition? role =
      if p.enabled role then p.made? raster title role else none := by
  rw [value_renderAll, Outcome.rendition?, find?_role_filterMap (p.role_of_made? raster title)]
  simp only [mem_stages]

/-- The failure in a role is that of the role's own answer. -/
theorem failure?_renderAll (raster : Raster) (title : String) (role : Role) :
    (p.renderAll raster title).value.failure? role =
      if p.enabled role then p.failed? raster role else none := by
  rw [value_renderAll, Outcome.failure?, find?_role_filterMap (p.role_of_failed? raster)]
  simp only [mem_stages]

/-- The entry of an enabled role is what the encoder's answer to its own call gives. -/
theorem hasEntry_renderAll (raster : Raster) (title : String) {role : Role}
    (h : p.enabled role = true) :
    (p.renderAll raster title).value.HasEntry role title (p.answer raster role) := by
  have hrendition := p.rendition?_renderAll raster title role
  have hfailure := p.failure?_renderAll raster title role
  rw [if_pos h, made?] at hrendition
  rw [if_pos h, failed?] at hfailure
  -- A file makes the one entry and an error the other.
  cases ha : p.answer raster role with
  | ok content => exact ⟨by rw [hrendition, ha], by rw [hfailure, ha]⟩
  | error e => exact ⟨by rw [hrendition, ha], by rw [hfailure, ha]⟩

/-! ## §5 Two pipelines -/

/-- Two pipelines agree on a stage: it is enabled in both or in neither, it has the same
    parameters, and both encoders answer the stage's call alike. Nothing is said about other
    calls of the encoders. -/
structure AgreeOn (p q : Pipeline) (raster : Raster) (role : Role) : Prop where
  enabled : p.enabled role = q.enabled role
  side : role = .overview →
    p.settings.rendering.effectiveSide.value = q.settings.rendering.effectiveSide.value
  answer : p.answer raster role = q.answer raster role

variable {p}

/-- The entry of a stage is the same in pipelines that agree on it. -/
theorem AgreeOn.entry_eq {q : Pipeline} {raster : Raster} {role : Role}
    (h : AgreeOn p q raster role) (title : String) :
    (p.renderAll raster title).value.rendition? role =
        (q.renderAll raster title).value.rendition? role ∧
      (p.renderAll raster title).value.failure? role =
        (q.renderAll raster title).value.failure? role := by
  have hmade : p.made? raster title role = q.made? raster title role := by
    rw [made?, made?, h.answer]
  have hfailed : p.failed? raster role = q.failed? raster role := by
    rw [failed?, failed?, h.answer]
  rw [rendition?_renderAll, rendition?_renderAll, failure?_renderAll, failure?_renderAll,
    h.enabled, hmade, hfailed]
  exact ⟨rfl, rfl⟩

/-- **Stages are isolated.** Thumbnails are always enabled, the others by their flags. Every
    enabled role has exactly one entry, among the renditions or among the failures, and a
    disabled one has none; both lists are in the order of the stages; the encoder is called once
    for each enabled role, in that order and with the same raster, whatever it answers. Each note
    of a call is one call of the encoder itself, and the entry of an enabled role is what the
    encoder says to the call of that role. So it is the same in every pipeline that agrees on that
    stage, however different the other stages are. -/
theorem renderAll_isolated (p : Pipeline) (raster : Raster) (title : String) :
    (p.enabled .thumbnail = true ∧ p.enabled .overview = p.settings.rendering.createOverview ∧
      p.enabled .original = p.settings.rendering.storeOriginal) ∧
    (∀ role, (p.renderAll raster title).value.made.count role +
        (p.renderAll raster title).value.failed.count role =
      if p.enabled role then 1 else 0) ∧
    (p.renderAll raster title).value.made.Pairwise Role.Before ∧
    (p.renderAll raster title).value.failed.Pairwise Role.Before ∧
    (p.renderAll raster title).requests =
      (raster, .boxed Box.thumbnail) ::
        ((if p.settings.rendering.createOverview then
            [(raster, .boxed (raster.overviewBox p.settings.rendering.effectiveSide.value))]
          else []) ++
        (if p.settings.rendering.storeOriginal then [(raster, .lossy Jp2.Profile.lossy)]
          else [])) ∧
    (∀ box, p.encode raster (.boxed box) =
      ⟨p.encoder.boxed raster box, [.encoded raster (.boxed box)]⟩) ∧
    (∀ profile, p.encode raster (.lossy profile) =
      ⟨p.encoder.lossy raster profile, [.encoded raster (.lossy profile)]⟩) ∧
    (p.renderAll raster title).value.HasEntry .thumbnail title
      (p.encoder.boxed raster Box.thumbnail) ∧
    (p.settings.rendering.createOverview = true →
      (p.renderAll raster title).value.HasEntry .overview title
        (p.encoder.boxed raster
          (raster.overviewBox p.settings.rendering.effectiveSide.value))) ∧
    (p.settings.rendering.storeOriginal = true →
      (p.renderAll raster title).value.HasEntry .original title
        (p.encoder.lossy raster Jp2.Profile.lossy)) ∧
    ∀ (q : Pipeline) (role : Role), AgreeOn p q raster role →
      (p.renderAll raster title).value.rendition? role =
          (q.renderAll raster title).value.rendition? role ∧
        (p.renderAll raster title).value.failure? role =
          (q.renderAll raster title).value.failure? role := by
  refine ⟨⟨rfl, rfl, rfl⟩, p.count_made_add_count_failed raster title, ?_, ?_,
    p.requests_renderAll raster title, p.encode_boxed raster, p.encode_lossy raster,
    p.hasEntry_renderAll raster title rfl, ?_, ?_, ?_⟩
  · rw [made_renderAll]
    exact p.pairwise_stages.filter _
  · rw [failed_renderAll]
    exact p.pairwise_stages.filter _
  -- The flag of a stage is what enables its role.
  · intro ho
    exact p.hasEntry_renderAll raster title (show p.enabled .overview = true from ho)
  · intro hs
    exact p.hasEntry_renderAll raster title (show p.enabled .original = true from hs)
  · intro q role h
    exact h.entry_eq title

/-- A thumbnail does not notice that the overview fails in one pipeline and is disabled in the
    other, nor that the originals differ. -/
theorem thumbnail_alike_in_different_pipelines :
    let raster : Raster := ⟨1, 1, 3, [10, 20, 30], by decide, by decide, by decide⟩
    let p : Pipeline := ⟨.default, fun _ => pure (.ok none),
      fun _ box => if box = Box.thumbnail then .ok [1, 2] else .error (.resample "no"),
      fun _ _ => .error (.compression "full")⟩
    let q : Pipeline := ⟨⟨⟨false, true, 5, 7⟩, .default⟩, fun _ => pure (.ok none),
      fun _ _ => .ok [1, 2], fun _ _ => .ok [3]⟩
    AgreeOn p q raster .thumbnail ∧ p.settings.rendering.createOverview = true ∧
      (p.renderAll raster "a").value.rendition? .thumbnail =
        some (Rendition.make .thumbnail "a" [1, 2]) ∧
      (q.renderAll raster "a").value.rendition? .thumbnail =
        some (Rendition.make .thumbnail "a" [1, 2]) ∧
      (p.renderAll raster "a").value.failure? .overview =
        some ⟨.overview, "Resampling failed: no"⟩ := by
  intro raster p q
  have h : AgreeOn p q raster .thumbnail := ⟨rfl, (fun hr => nomatch hr), rfl⟩
  have hno : p.encoder.boxed raster
      (raster.overviewBox p.settings.rendering.effectiveSide.value) = .error (.resample "no") :=
    if_neg (by decide +kernel)
  obtain ⟨-, -, -, -, -, -, -, hthumbnail, hoverview, -, hagree⟩ := renderAll_isolated p raster "a"
  rw [hno] at hoverview
  exact ⟨h, rfl, hthumbnail.1, (hagree q .thumbnail h).1 ▸ hthumbnail.1, (hoverview rfl).2⟩

end Pipeline

end Quicklook
