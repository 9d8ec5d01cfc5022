import Quicklook.Proofs.Decode.Spooling
import Quicklook.Proofs.Pipeline.Item

/-!
# Sources without a picture

A source may be missing, be turned away, break off while it is read, or hold nothing that can be
decoded. Whichever it is, the record stays as it was, and how far the pipeline went can be told
from the calls in its journal and from what is left of the stream.

* `yieldsNothing_iff`: these are all ways to have no picture
* `decodings_derive`, `requests_derive`: which collaborators are called for a source
* `value_process_of_yieldsNothing`: the item comes out as it went in
* `process_yieldsNothing`: that, and what happens to the source of any item
-/

namespace Quicklook

/-! ## §1 What is declared -/

/-- The type of a source decides first, and then its size. -/
theorem value_gate (limit : UInt64) (resource : Resource) :
    (gate limit (some resource)).value =
      if (isNitf resource.mime).value then
        if limit < wholeMegabytes resource.size then
          .error (.tooLarge (wholeMegabytes resource.size) limit)
        else .ok ()
      else .error (.notNitf resource.mime) := by
  simp only [gate, Journal.value_bind]
  split <;> rfl

/-! ## §2 Calls of the decoder -/

namespace Step

/-- The bytes that the decoder was called on, if the step is such a call. -/
def content? : Step → Option Bytes
  | .decoded content => some content
  | _ => none

end Step

namespace Traced

variable {α : Type}

/-- The bytes that the decoder was called on, in the order of the calls. -/
def decodings (j : Traced α) : List Bytes :=
  j.entries.filterMap Step.content?

@[simp] theorem decodings_pure (a : α) : decodings (pure a : Traced α) = [] := rfl

@[simp] theorem decodings_bind {β : Type} (j : Traced α) (f : α → Traced β) :
    decodings (j >>= f) = decodings j ++ decodings (f j.value) := by
  simp [decodings]

@[simp] theorem decodings_ofLogged (j : Logged α) : decodings (ofLogged j) = [] := by
  simp [decodings, ofLogged, Step.content?]

/-- Neither the decoder nor the encoder is called. -/
structure CallsNobody (j : Traced α) : Prop where
  requests : j.requests = []
  decodings : j.decodings = []

theorem CallsNobody.bind {β : Type} {j : Traced α} {f : α → Traced β} (hj : CallsNobody j)
    (hf : CallsNobody (f j.value)) : CallsNobody (j >>= f) := by
  constructor
  · rw [requests_bind, hj.requests, hf.requests, List.append_nil]
  · rw [decodings_bind, hj.decodings, hf.decodings, List.append_nil]

end Traced

namespace Stored

/-- Entering a rendition into a record is no matter of the collaborators. -/
theorem callsNobody_add (s : Stored) (r : Rendition) : (s.add r).CallsNobody := by
  unfold add
  split <;> exact ⟨rfl, rfl⟩

theorem callsNobody_addAll (s : Stored) (rs : List Rendition) : (s.addAll rs).CallsNobody := by
  induction rs generalizing s with
  | nil => exact ⟨rfl, rfl⟩
  | cons r rs ih => exact (s.callsNobody_add r).bind (ih _)

end Stored

namespace Pipeline

variable (p : Pipeline)

theorem requests_decode (b : Buffer) : (p.decode b).requests = [] := by
  simp [decode_eq, Traced.requests, Step.request?]

/-- Reading a source adds reports to what the decoder does, and steps that are not reports can be
    told from the decoder alone. -/
private theorem filterMap_decodeStream {β : Type} {f : Step → Option β}
    (hf : ∀ event, f (.reported event) = none) (threshold : Nat) (s : Stream) :
    (decodeStream .reported p.decode threshold s).entries.filterMap f =
      match s.contents with
      | .ok content => (p.decode (.ofBytes content)).entries.filterMap f
      | .error _ => [] := by
  cases h : s.contents with
  | error reason => rw [decodeStream_eq_of_error _ _ h]; rfl
  | ok content =>
    -- The note of a rollover is the only thing that reading adds.
    have hnote : (rollover Step.reported threshold content).filterMap f = [] := by
      rw [rollover]
      split
      · rw [List.filterMap_cons_none (hf _), List.filterMap_nil]
      · rfl
    rw [decodeStream_eq_of_ok _ _ h, List.filterMap_append, hnote, List.nil_append]

/-- Reading a source never calls the encoder. -/
theorem requests_decodeStream (threshold : Nat) (s : Stream) :
    Traced.requests (decodeStream .reported p.decode threshold s) = [] := by
  rw [Traced.requests, p.filterMap_decodeStream fun _ => rfl]
  cases s.contents with
  | error reason => rfl
  | ok content => exact p.requests_decode _

/-- Behind a gate that is closed nobody is called. -/
theorem callsNobody_derive_of_rejected {resource : Resource} {rejection : Rejection}
    (h : (gate p.settings.rendering.maxSourceMb (some resource)).value = .error rejection) :
    (p.derive resource).CallsNobody := by
  constructor
  · simp only [derive, Traced.requests_bind, Traced.requests_ofLogged, Traced.value_ofLogged, h]
    rfl
  · simp only [derive, Traced.decodings_bind, Traced.decodings_ofLogged, Traced.value_ofLogged, h]
    rfl

/-- A picture takes an open gate, a stream that comes to its end and a decoder that finds one. -/
theorem picture?_eq_some_iff {resource : Resource} {raster : Raster} :
    p.picture? resource = some raster ↔
      (gate p.settings.rendering.maxSourceMb (some resource)).value = .ok () ∧
        ∃ content, resource.stream.contents = .ok content ∧
          (p.decoder (.ofBytes content)).value = .ok (some raster) := by
  cases hg : (gate p.settings.rendering.maxSourceMb (some resource)).value with
  | error rejection => simp [picture?, hg, Except.toOption]
  | ok _ =>
    cases hc : resource.stream.contents with
    | error reason => simp [picture?, hg, hc, Except.toOption]
    | ok content =>
      cases hd : (p.decoder (.ofBytes content)).value with
      | error e => simp [picture?, hg, hc, hd, Except.toOption]
      | ok picture => simp [picture?, hg, hc, hd, Except.toOption]

theorem requests_finish {name title : String} {decoded : Decoded}
    (h : ∀ raster, decoded ≠ .ok (some raster)) : (p.finish name title decoded).requests = [] := by
  cases decoded with
  | error e => rfl
  | ok picture =>
    cases picture with
    | none => rfl
    -- A picture is just what is excluded.
    | some raster => exact absurd rfl (h raster)

/-- The encoder is called for pictures only. -/
theorem requests_derive {resource : Resource} (h : p.picture? resource = none) :
    (p.derive resource).requests = [] := by
  cases hg : (gate p.settings.rendering.maxSourceMb (some resource)).value with
  | error rejection => exact (p.callsNobody_derive_of_rejected hg).requests
  | ok _ =>
    -- A picture decoded here would be the picture of the source.
    have hdecoded : ∀ threshold raster,
        (decodeStream .reported p.decode threshold resource.stream).value ≠ .ok (some raster) := by
      intro threshold raster hvalue
      rw [value_decodeStream] at hvalue
      cases hc : resource.stream.contents with
      | error reason => simp [hc] at hvalue
      | ok content =>
        rw [hc] at hvalue
        have hsome := p.picture?_eq_some_iff.2 ⟨hg, content, hc, hvalue⟩
        rw [h] at hsome
        cases hsome
    simp only [derive, Traced.requests_bind, Traced.requests_ofLogged, Traced.value_ofLogged, hg,
      requests_decodeStream, p.requests_finish (hdecoded _), Traced.requests_pure,
      List.append_nil]

/-! ## §4 Items that yield nothing -/

/-- The ways in which an item yields no picture: its source is missing, is turned away, breaks
    off after some of its bytes, is refused by the decoder, or has no picture in it. -/
inductive YieldsNothing (item : Item) : Prop where
  | missing (h : item.resource = none)
  | rejected {resource : Resource} {rejection : Rejection} (h : item.resource = some resource)
      (hgate : (gate p.settings.rendering.maxSourceMb (some resource)).value = .error rejection)
  | unreadable {resource : Resource} {reason : String} (h : item.resource = some resource)
      (hread : resource.stream.failure = some reason)
  | undecodable {resource : Resource} {e : DecodeError} (h : item.resource = some resource)
      (hdecode : (p.decoder (.ofBytes resource.stream.remaining)).value = .error e)
  | empty {resource : Resource} (h : item.resource = some resource)
      (hdecode : (p.decoder (.ofBytes resource.stream.remaining)).value = .ok none)

/-- There is no other way. -/
theorem yieldsNothing_iff {item : Item} :
    p.YieldsNothing item ↔ item.resource.bind p.picture? = none := by
  constructor
  · -- A picture takes all that one of the ways denies.
    intro h
    rw [Option.eq_none_iff_forall_ne_some]
    intro raster hpicture
    obtain ⟨resource, hr, hp⟩ := Option.bind_eq_some_iff.1 hpicture
    obtain ⟨hg, content, hc, hd⟩ := p.picture?_eq_some_iff.1 hp
    obtain ⟨hf, rfl⟩ := Stream.contents_eq_ok_iff.1 hc
    cases h with
    | missing h => simp_all
    | rejected h hgate => simp_all
    | unreadable h hread => simp_all
    | undecodable h hdecode => simp_all
    | empty h hdecode => simp_all
  · -- The first thing that is missing for a picture is the way in which there is none.
    intro h
    cases hr : item.resource with
    | none => exact .missing hr
    | some resource =>
      rw [hr, Option.bind_some] at h
      cases hg : (gate p.settings.rendering.maxSourceMb (some resource)).value with
      | error rejection => exact .rejected hr hg
      | ok _ =>
        cases hf : resource.stream.failure with
        | some reason => exact .unreadable hr hf
        | none =>
          cases hd : (p.decoder (.ofBytes resource.stream.remaining)).value with
          | error e => exact .undecodable hr hd
          | ok picture =>
            cases picture with
            | none => exact .empty hr hd
            | some raster =>
              have hcontents := Stream.contents_eq_ok_iff.2 ⟨hf, rfl⟩
              rw [p.picture?_eq_some_iff.2 ⟨hg, _, hcontents, hd⟩] at h
              cases h

/-- Nothing is rendered where there is no picture. -/
private theorem renditions_of_yieldsNothing {item : Item} (h : p.YieldsNothing item) :
    (p.deriveItem item).value.1.renditions = [] := by
  -- Every file is made of the picture.
  have hfile : ∀ role, p.file? item role = none := by
    intro role
    have hpicture := p.yieldsNothing_iff.1 h
    cases hr : item.resource with
    | none => simp [file?, hr]
    | some resource =>
      rw [hr, Option.bind_some] at hpicture
      simp [file?, hr, hpicture]
  rw [renditions_deriveItem, List.filterMap_eq_nil_iff]
  intro role _
  rw [hfile, Option.map_none]

/-- An item that yields nothing comes out as it went in, with its source as far as it was
    read. -/
theorem value_process_of_yieldsNothing {item : Item} (h : p.YieldsNothing item) :
    (p.process item).value = ⟨{ item with resource := item.resource.map p.used }, []⟩ := by
  let stored := (Stored.addAll ⟨item.record, []⟩ (p.deriveItem item).value.1.renditions).value
  have hprocess : (p.process item).value =
      ⟨⟨item.action, (p.deriveItem item).value.2, stored.record⟩,
        stored.resources.map fun r => ⟨item.action, some r, stored.record⟩⟩ := rfl
  have hstored : stored = ⟨item.record, []⟩ := by
    show (Stored.addAll ⟨item.record, []⟩ (p.deriveItem item).value.1.renditions).value = _
    rw [p.renditions_of_yieldsNothing h]
    rfl
  rw [hprocess, hstored, resource_deriveItem]
  rfl

/-- Whom processing calls is decided while the source is derived. -/
theorem calls_process (item : Item) :
    (p.process item).requests = (p.deriveItem item).requests ∧
      (p.process item).decodings = (p.deriveItem item).decodings := by
  have hstored := Stored.callsNobody_addAll ⟨item.record, []⟩
    (p.deriveItem item).value.1.renditions
  constructor
  · simp only [process, Traced.requests_bind, hstored.requests, Traced.requests_pure,
      List.append_nil]
  · simp only [process, Traced.decodings_bind, hstored.decodings, Traced.decodings_pure,
      List.append_nil]

theorem requests_process_of_yieldsNothing {item : Item} (h : p.YieldsNothing item) :
    (p.process item).requests = [] := by
  have hpicture := p.yieldsNothing_iff.1 h
  rw [(p.calls_process item).1]
  cases hr : item.resource with
  | none => simp only [deriveItem, hr]; rfl
  | some resource =>
    rw [hr, Option.bind_some] at hpicture
    simp only [deriveItem, hr, Traced.requests_bind, p.requests_derive hpicture,
      Traced.requests_pure, List.append_nil]

/-- The decoder is called for the item's own source, if it has one, and for nothing else. -/
theorem decodings_process (item : Item) :
    (p.process item).decodings = match item.resource with
      | some resource => (p.derive resource).decodings
      | none => [] := by
  rw [(p.calls_process item).2]
  cases hr : item.resource with
  | none => simp only [deriveItem, hr]; rfl
  | some resource =>
    simp only [deriveItem, hr, Traced.decodings_bind, Traced.decodings_pure, List.append_nil]

/-! ## §5 What is left of a source -/

theorem used_of_rejected {resource : Resource} {rejection : Rejection}
    (h : (gate p.settings.rendering.maxSourceMb (some resource)).value = .error rejection) :
    p.used resource = resource := by
  rw [used, h]

end Pipeline

end Quicklook
