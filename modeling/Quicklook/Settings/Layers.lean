import Quicklook.Settings.Basic
import Quicklook.Settings.Schema
import Quicklook.Toml.Layer
import Quicklook.Bytes

/-!
# Layers of settings

Settings come in layers: the defaults, written out as a value, and a file that says only
what is to differ. The layers are laid upon each other before anything is read off them.
-/

namespace Quicklook

/-! ## §1 Schemas of the groups -/

/-- The fields of `Rendering`. -/
def Rendering.schema : Schema Rendering where
  name := "struct RenderSettings"
  initial := .default
  fields := [
    .make "create_overview" Form.boolean fun b s => { s with createOverview := b },
    .make "store_original_image" Form.boolean fun b s => { s with storeOriginal := b },
    .make "overview_max_side_length" Form.float fun x s => { s with overviewSide := x },
    .make "max_source_size_mb" (Form.word "u64") fun n s => { s with maxSourceMb := n }]

/-- The fields of `Workload`. -/
def Workload.schema : Schema Workload where
  name := "struct ProcessingConfig"
  initial := .default
  fields := [
    .make "max_processes" (Form.word "usize") fun n s => { s with maxProcesses := some n },
    .make "spool_threshold_bytes" (Form.word "usize") fun n s => { s with spoolThreshold := n }]

/-- The groups of `Settings`. -/
def Settings.schema : Schema Settings where
  name := "struct RenderConfig"
  initial := .default
  fields := [
    .make "render" (fun form => Rendering.schema.read form) fun r s =>
      { s with rendering := r },
    .make "processing" (fun form => Workload.schema.read form) fun p s =>
      { s with workload := p }]

/-! ## §2 Errors -/

/-- Why there are no settings. -/
inductive SettingsError where
  | unreadable (reason : String)
  /-- The text is not one of settings at all. -/
  | malformed
  /-- A value does not fit. -/
  | misfit (fault : Fault)
  /-- A number is too large to be written down. -/
  | unwritable
  | invalid (setting : InvalidSetting)

/-- The text of the error. -/
def SettingsError.message : SettingsError → String
  | .unreadable reason => s!"IO error: {reason}"
  | .malformed => "TOML parse error: malformed document"
  | .misfit fault => "TOML parse error: " ++ fault.located
  | .unwritable => "TOML serialize error: u64 value was too large"
  | .invalid setting => "Config validation error: " ++ setting.message

/-! ## §3 Settings as values -/

/-- A whole number as a value; it must leave room for a sign. -/
def wordValue (n : UInt64) : Except SettingsError Toml.Value :=
  if n.toNat ≤ Int64.maxValue.toNatClampNeg then .ok (.integer n.toInt64) else .error .unwritable

namespace Settings

/-- The settings as a value. What is not given is left out. -/
def toValue (s : Settings) : Except SettingsError Toml.Value := do
  let maxSource ← wordValue s.rendering.maxSourceMb
  let processes ← match s.workload.maxProcesses with
    | none => pure []
    | some n => do
      let v ← wordValue n
      pure [("max_processes", v)]
  let threshold ← wordValue s.workload.spoolThreshold
  pure (.table [
    ("render", .table [
      ("create_overview", .boolean s.rendering.createOverview),
      ("store_original_image", .boolean s.rendering.storeOriginal),
      ("overview_max_side_length", .float s.rendering.overviewSide),
      ("max_source_size_mb", maxSource)]),
    ("processing", .table (processes ++ [("spool_threshold_bytes", threshold)]))])

/-- The defaults as a value, the lowest layer. -/
def stockLayer : Except SettingsError Toml.Value :=
  Settings.default.toValue

/-! ## §4 Settings from values -/

/-- The settings that a value gives. -/
def ofValue (form : Form) (v : Toml.Value) : Except Fault Settings :=
  schema.read form v

/-- The settings that a text gives on its own, valid or not. -/
def ofText (text : String) : Except SettingsError Settings :=
  match Toml.Value.ofText? text with
  | none => .error .malformed
  | some v => (ofValue .document v).mapError .misfit

/-- The valid settings that layers give. -/
def resolve (base : Toml.Value) (overlay : Option Toml.Value) : Except SettingsError Settings := do
  let merged := match overlay with
    | some upper => base.merge upper
    | none => base
  let s ← (ofValue .layered merged).mapError .misfit
  -- Only settings that can be read at all are looked at for their sense.
  s.validate.mapError .invalid
  pure s

end Settings

/-! ## §5 Settings files -/

/-- What stands at the place of the settings file. -/
inductive SettingsFile where
  | absent
  | directory
  | content (b : Bytes)

namespace SettingsFile

/-- The value of a settings file, if there is one. -/
def value? : SettingsFile → Except SettingsError (Option Toml.Value)
  | .absent => .ok none
  | .directory => .error (.unreadable "Is a directory (os error 21)")
  | .content b =>
    match b.text? with
    | none => .error (.unreadable "stream did not contain valid UTF-8")
    | some text =>
      match Toml.Value.ofLayerText? text with
      | none => .error .malformed
      | some v => .ok (some v)

/-- The settings that a file and the defaults give. -/
def settings (f : SettingsFile) : Except SettingsError Settings := do
  let base ← Settings.stockLayer
  -- Without a file the defaults are all there is.
  let overlay ← f.value?
  Settings.resolve base overlay

end SettingsFile

end Quicklook
