import Quicklook.Decode.Basic
import Quicklook.Pipeline.Gate
import Quicklook.Settings.Basic

/-!
# The pipeline

One source becomes up to three renditions. The source passes the gate, is spooled and
decoded, and the picture is encoded once for each enabled role. A source that is turned away
or gives no picture has no renditions; a rendition that fails leaves the others alone.

A pipeline keeps a journal of all that it reports and of every call of its decoder and of
its encoder.
-/

namespace Quicklook

/-! ## §1 Journals of a pipeline -/

/-- What a pipeline notes. -/
inductive Step where
  | reported (event : Event)
  /-- The decoder was called on a buffer with the given bytes, to be read from the first. -/
  | decoded (content : Bytes)
  | encoded (raster : Raster) (request : Rendition.Request)

namespace Step

/-- The report, if the step is one. -/
def event? : Step → Option Event
  | .reported event => some event
  | _ => none

/-- The call of the encoder, if the step is one. -/
def request? : Step → Option (Raster × Rendition.Request)
  | .encoded raster request => some (raster, request)
  | _ => none

end Step

/-- A computation that notes what a pipeline does. -/
abbrev Traced := Journal Step

namespace Traced

variable {α : Type}

/-- A computation that only makes reports. -/
def ofLogged (j : Logged α) : Traced α :=
  j.mapEntries .reported

/-- Makes a report. -/
def report (event : Event) : Traced Unit :=
  Journal.note (.reported event)

/-- The reports, in order. -/
def events (j : Traced α) : List Event :=
  j.entries.filterMap Step.event?

/-- The calls of the encoder, in order. -/
def requests (j : Traced α) : List (Raster × Rendition.Request) :=
  j.entries.filterMap Step.request?

@[simp] theorem requests_pure (a : α) : requests (pure a : Traced α) = [] := rfl

@[simp] theorem requests_bind {β : Type} (j : Traced α) (f : α → Traced β) :
    requests (j >>= f) = requests j ++ requests (f j.value) := by
  simp [requests]

@[simp] theorem requests_report (event : Event) : requests (report event) = [] := rfl

@[simp] theorem value_ofLogged (j : Logged α) : (ofLogged j).value = j.value := rfl

@[simp] theorem requests_ofLogged (j : Logged α) : requests (ofLogged j) = [] := by
  simp [requests, ofLogged, Step.request?]

end Traced

/-! ## §2 Pipelines -/

/-- Settings, and the two collaborators that know about files. -/
structure Pipeline where
  settings : Settings
  /-- What finds the picture in a file. -/
  decoder : Decoder
  /-- What makes the files of renditions. -/
  encoder : Encoder

namespace Pipeline

variable (p : Pipeline)

/-- Whether renditions are made in a role. Thumbnails always are. -/
def enabled : Role → Bool
  | .thumbnail => true
  | .overview => p.settings.rendering.createOverview
  | .original => p.settings.rendering.storeOriginal

/-- Calls the decoder. -/
def decode (b : Buffer) : Traced Decoded := do
  Journal.note (.decoded b.rest)
  Traced.ofLogged (p.decoder b)

/-- Calls the encoder. -/
def encode (raster : Raster) (request : Rendition.Request) :
    Traced (Except EncodeError Bytes) := do
  Journal.note (.encoded raster request)
  pure (request.run p.encoder raster)

/-! What is noted of a call and what comes of it belong together: there is one note for each
call, and the answer is that of the collaborator itself. -/

theorem decode_eq (b : Buffer) :
    p.decode b = ⟨(p.decoder b).value, .decoded b.rest :: (p.decoder b).entries.map .reported⟩ :=
  rfl

theorem encode_boxed (raster : Raster) (box : Box) :
    p.encode raster (.boxed box) =
      ⟨p.encoder.boxed raster box, [.encoded raster (.boxed box)]⟩ :=
  rfl

theorem encode_lossy (raster : Raster) (profile : Jp2.Profile) :
    p.encode raster (.lossy profile) =
      ⟨p.encoder.lossy raster profile, [.encoded raster (.lossy profile)]⟩ :=
  rfl

/-- The bound on the overview. Only for an overview is it looked at. -/
def side : Role → Traced Float
  | .overview => Traced.ofLogged p.settings.rendering.effectiveSide
  | .thumbnail | .original => pure p.settings.rendering.overviewSide

/-- Makes the rendition of a raster in a role. -/
def render (raster : Raster) (title : String) (role : Role) :
    Traced (Except String Rendition) := do
  let side ← p.side role
  match ← p.encode raster (Rendition.request role raster side) with
  | .ok content => pure (.ok (Rendition.make role title content))
  | .error e => do
    Traced.report (.renditionFailed role.qualifier e.message)
    pure (.error e.message)

/-- Makes the renditions of a raster in roles, one after another. -/
def renderRoles (p : Pipeline) (raster : Raster) (title : String) (o : Outcome) :
    List Role → Traced Outcome
  | [] => pure o
  | role :: roles => do
    let result ← p.render raster title role
    p.renderRoles raster title (o.add role result) roles

/-- Makes the renditions of a raster in all enabled roles. -/
def renderAll (raster : Raster) (title : String) : Traced Outcome :=
  p.renderRoles raster title .none (Role.all.filter p.enabled)

/-! ## §3 One source -/

/-- What came of a source, and the source with its stream as far as it was read. -/
structure Derived where
  outcome : Outcome
  resource : Resource

/-- The outcome of a source that passed the gate and was decoded. -/
def finish (name title : String) : Decoded → Traced Outcome
  | .ok (some raster) => p.renderAll raster title
  | .ok none => do
    Traced.report (.noImage name)
    pure .none
  | .error e => do
    Traced.report (.sourceUndecodable name e.message)
    pure .none

/-- Takes a source through the whole pipeline. A source that the gate turns away is not
    read; any other is read to its end. -/
def derive (resource : Resource) : Traced Derived := do
  match ← Traced.ofLogged (gate p.settings.rendering.maxSourceMb (some resource)) with
  | .error rejection => do
    Traced.report (.sourceSkipped resource.name rejection.reason)
    pure ⟨.none, resource⟩
  | .ok () => do
    let threshold := p.settings.workload.spoolThreshold.toNat
    let decoded ← decodeStream .reported p.decode threshold resource.stream
    let outcome ← p.finish resource.name resource.title decoded
    pure ⟨outcome, resource.drained⟩

end Pipeline

end Quicklook
