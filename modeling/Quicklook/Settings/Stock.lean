/-!
# The stock settings file

A settings file with every setting at its default and a comment on each.
-/

namespace Quicklook

/-- The lines of the stock settings file. -/
def stockLines : List String := [
  "# NITF Render Configuration",
  "# =========================",
  "# All settings are optional. Values shown below are the defaults.",
  "# Unknown keys will cause an error.",
  "",
  "[render]",
  "# Produce a JPEG overview bounded on its longer edge.",
  "create_overview = true",
  "",
  "# Keep a lossy JPEG 2000 copy of the full-resolution image.",
  "store_original_image = true",
  "",
  "# Longer edge of the overview, in pixels. Smaller images are not upscaled.",
  "# Zero or negative values fall back to 1024.",
  "overview_max_side_length = 1024.0",
  "",
  "# Sources larger than this many whole megabytes are not rendered.",
  "max_source_size_mb = 120",
  "",
  "[processing]",
  "# Maximum parallel workers. Omit for auto (= number of CPU cores).",
  "# Values above the core count are clamped down.",
  "# max_processes = 4",
  "",
  "# Sources up to this many bytes are decoded from memory; larger ones are",
  "# spooled to a temporary file first.",
  "spool_threshold_bytes = 1048576"]

/-- The text of the stock settings file. -/
def stockText : String :=
  String.join (stockLines.map (· ++ "\n"))

end Quicklook
