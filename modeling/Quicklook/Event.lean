import Quicklook.Journal
import Quicklook.Text.Quoted
import Quicklook.Decimal.Shortest

/-!
# Events

What the library reports while it works. None of these is an error: a source that is passed
over, a segment that does not render and a rendition that fails leave a report behind and
the work goes on.
-/

namespace Quicklook

/-- How much attention a report asks for. -/
inductive Level where
  | debug
  | trace
deriving Repr, DecidableEq

/-- The name of a level. -/
def Level.name : Level → String
  | .debug => "debug"
  | .trace => "trace"

/-- A report. Reasons are carried as the texts that the failed steps gave. -/
inductive Event where
  | mimeUnparsable (mime : String)
  | sourceSkipped (name reason : String)
  | recordSkipped (id reason : String)
  | spooledToDisk (threshold : Nat)
  | segmentNotRenderable (index : Nat)
  | segmentFailed (index : Nat) (reason : String)
  | noImage (name : String)
  | sourceUndecodable (name reason : String)
  | renditionFailed (role reason : String)
  | renditionStored (role recordId : String)
  /-- A configured overview side that cannot be used; `used` takes its place. -/
  | overviewSideInvalid (side used : Float)
  /-- A line of a country table without a separator, counted from one. -/
  | countryLineIgnored (number : Nat) (line : String)
  | attributeFailed (name reason : String)

namespace Event

/-- Only stored renditions are reported at the trace level. -/
def level : Event → Level
  | .renditionStored .. => .trace
  | _ => .debug

/-- The text of a report. -/
def message : Event → String
  | .mimeUnparsable mime => "Unable to parse mime type " ++ Text.quoted mime
  | .sourceSkipped name reason => s!"Skipping resource {name}: {reason}"
  | .recordSkipped id reason => s!"Skipping record {id}: {reason}"
  | .spooledToDisk threshold =>
    s!"Spooled source exceeded {threshold} bytes, decoding from disk"
  | .segmentNotRenderable index => s!"Image segment {index} is not renderable"
  | .segmentFailed index reason => s!"Unable to render image segment {index}: {reason}"
  | .noImage name => s!"No renderable image in NITF {name}"
  | .sourceUndecodable name reason => s!"Unable to render image from NITF {name}: {reason}"
  | .renditionFailed role reason => s!"Unable to generate {role} image from NITF: {reason}"
  | .renditionStored role recordId =>
    s!"Successfully rendered and stored {role} image for NITF with id={recordId}"
  | .overviewSideInvalid side used =>
    "Invalid overview_max_side_length " ++ Decimal.positional side ++ ", using " ++
      Decimal.positional used
  | .countryLineIgnored number line =>
    s!"Ignoring country code line {number}: " ++ Text.quoted line
  | .attributeFailed name reason => s!"Unable to extract attribute {name}: {reason}"

end Event

/-- A computation that makes reports. -/
abbrev Logged := Journal Event

/-- Makes a report. -/
def Logged.report (event : Event) : Logged Unit :=
  Journal.note event

end Quicklook
