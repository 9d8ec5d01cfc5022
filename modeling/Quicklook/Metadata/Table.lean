import Quicklook.Metadata.Row

/-!
# Metadata tables

Which fields of a file are entered into the catalog, and under which attributes: those of
the file header, of the aircraft extension, and of the identification extension. A field
that feeds a shared attribute is entered twice, under the shared name and under a name of
its own that begins with `ext.nitf.`
-/

namespace Quicklook.Metadata

/-- Rows in the order in which they are worked through. -/
abbrev Table := List Row

/-- The file header. -/
def headerTable : Table := [
  ⟨"media.format", "FHDR", .text, .text⟩,
  ⟨"media.format-version", "FVER", .text, .text⟩,
  ⟨"isr.organizational-unit", "OSTAID", .text, .text⟩,
  ⟨"title", "FTITLE", .text, .text⟩,
  ⟨"created", "FDT", .date, .date⟩,
  ⟨"modified", "FDT", .date, .date⟩,
  ⟨"effective", "FDT", .date, .date⟩,
  ⟨"security.classification", "FSCLAS", .classification, .text⟩,
  ⟨"security.classification-system", "FSCLSY", .country, .text⟩,
  ⟨"security.codewords", "FSCODE", .text, .text⟩,
  ⟨"security.dissemination-controls", "FSCTLH", .text, .text⟩,
  ⟨"security.releasability", "FSREL", .text, .text⟩,
  ⟨"contact.creator-name", "ONAME", .text, .text⟩,
  ⟨"contact.creator-phone", "OPHONE", .text, .text⟩,
  ⟨"ext.nitf.file-profile-name", "FHDR", .text, .text⟩,
  ⟨"ext.nitf.file-version", "FVER", .text, .text⟩,
  ⟨"ext.nitf.originating-station-id", "OSTAID", .text, .text⟩,
  ⟨"ext.nitf.file-title", "FTITLE", .text, .text⟩,
  ⟨"ext.nitf.file-date-and-time", "FDT", .date, .date⟩,
  ⟨"ext.nitf.file-security-classification", "FSCLAS", .classification, .text⟩,
  ⟨"ext.nitf.file-classification-security-system", "FSCLSY", .text, .text⟩,
  ⟨"ext.nitf.file-codewords", "FSCODE", .text, .text⟩,
  ⟨"ext.nitf.file-control-and-handling", "FSCTLH", .text, .text⟩,
  ⟨"ext.nitf.file-releasing-instructions", "FSREL", .text, .text⟩,
  ⟨"ext.nitf.originators-name", "ONAME", .text, .text⟩,
  ⟨"ext.nitf.originators-phone-number", "OPHONE", .text, .text⟩,
  ⟨"ext.nitf.complexity-level", "CLEVEL", .integer, .integer⟩,
  ⟨"ext.nitf.standard-type", "STYPE", .text, .text⟩,
  ⟨"ext.nitf.file-declassification-exemption", "FSDCXM", .text, .text⟩,
  ⟨"ext.nitf.file-declassification-type", "FSDCTP", .text, .text⟩,
  ⟨"ext.nitf.file-declassification-date", "FSDCDT", .text, .text⟩,
  ⟨"ext.nitf.file-downgrade", "FSDG", .text, .text⟩,
  ⟨"ext.nitf.file-downgrade-date", "FSDGDT", .text, .text⟩,
  ⟨"ext.nitf.file-classification-text", "FSCLTX", .text, .text⟩,
  ⟨"ext.nitf.file-classification-authority-type", "FSCATP", .text, .text⟩,
  ⟨"ext.nitf.file-classification-authority", "FSCAUT", .text, .text⟩,
  ⟨"ext.nitf.file-classification-reason", "FSCRSN", .text, .text⟩,
  ⟨"ext.nitf.file-security-source-date", "FSSRDT", .text, .text⟩,
  ⟨"ext.nitf.file-security-control-number", "FSCTLN", .text, .text⟩,
  ⟨"ext.nitf.file-copy-number", "FSCOP", .text, .text⟩,
  ⟨"ext.nitf.file-number-of-copies", "FSCPYS", .text, .text⟩,
  ⟨"ext.nitf.file-background-color", "FBKGC", .text, .text⟩]

/-- The aircraft information extension. -/
def aircraftTable : Table := [
  ⟨"isr.mission-id", "AC_MSN_ID", .text, .text⟩,
  ⟨"isr.platform-id", "AC_TAIL_NO", .text, .text⟩,
  ⟨"isr.sensor-type", "SENSOR_ID_TYPE", .text, .text⟩,
  ⟨"isr.sensor-id", "SENSOR_ID", .text, .text⟩,
  ⟨"ext.nitf.acftb.aircraft-mission-id", "AC_MSN_ID", .text, .text⟩,
  ⟨"ext.nitf.acftb.aircraft-tail-number", "AC_TAIL_NO", .text, .text⟩,
  ⟨"ext.nitf.acftb.sensor-id-type", "SENSOR_ID_TYPE", .text, .text⟩,
  ⟨"ext.nitf.acftb.sensor-id", "SENSOR_ID", .text, .text⟩,
  ⟨"ext.nitf.acftb.aircraft-take-off", "AC_TO", .text, .text⟩,
  ⟨"ext.nitf.acftb.scene-source", "SCENE_SOURCE", .text, .text⟩,
  ⟨"ext.nitf.acftb.scene-number", "SCNUM", .text, .text⟩,
  ⟨"ext.nitf.acftb.processing-date", "PDATE", .text, .text⟩,
  ⟨"ext.nitf.acftb.immediate-scene-host", "IMHOSTNO", .text, .text⟩,
  ⟨"ext.nitf.acftb.immediate-scene-request-id", "IMREQID", .text, .text⟩,
  ⟨"ext.nitf.acftb.mission-plan-mode", "MPLAN", .text, .text⟩]

/-- The country fields of the standard identification extension. -/
def identificationTable : Table := [
  ⟨"location.country-code", "COUNTRY", .country, .text⟩,
  ⟨"ext.nitf.stdidc.country", "COUNTRY", .text, .text⟩]

/-- The names of a table's attributes, in order. -/
def Table.names (table : Table) : List String :=
  table.map Row.name

/-- What the names begin with that are used for these files only. -/
def extensionNamespace : String :=
  "ext.nitf."

/-- Whether an attribute is used for these files only. -/
def isExtensionName (name : String) : Bool :=
  extensionNamespace.toList.isPrefixOf name.toList

/-- No attribute is in a table twice. -/
theorem nodup_names :
    headerTable.names.Nodup ∧ aircraftTable.names.Nodup ∧ identificationTable.names.Nodup := by
  decide +kernel

end Quicklook.Metadata
