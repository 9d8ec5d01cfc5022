import Quicklook.Text.Lower
import Quicklook.Text.Pieces

/-!
# File names of renditions

A rendition is named after the title of its source, so that it stays recognisable in a
store: the title is cut down to the name of a file without its extension, then to its ASCII
letters and digits, and stands between the qualifier and the extension, all in lower case.

* `My Sat Image #1!` gives `overview-mysatimage1.jpg`
* `/data/ingest/scene_04.ntf` gives `original-scene04.jp2`

When nothing is left of the title the name is the qualifier alone, and its extension is
`jpg` whatever extension was asked for.
-/

namespace Quicklook.FileName

/-! ## §1 The core of a title -/

/-- Whether a character separates the segments of a path. -/
def isSeparator (c : Char) : Bool :=
  c == '/' || c == '\\'

/-- Whether a character may stand in the core of a name. -/
def isCore (c : Char) : Bool :=
  c.isAlphanum

/-- The last segment of a path. -/
def lastSegment (title : List Char) : List Char :=
  (title.reverse.takeWhile (! isSeparator ·)).reverse

/-- A file name up to its last dot, or all of it. -/
def stem (file : List Char) : List Char :=
  match file.reverse.dropWhile (· != '.') with
  | [] => file
  | _ :: rest => rest.reverse

/-- The ASCII letters and digits of the title's last segment, its extension left out. -/
def core (title : List Char) : List Char :=
  (stem (lastSegment title)).filter isCore

/-! ## §2 The name -/

/-- The extension of a name without a core. -/
def fallbackExtension : List Char :=
  "jpg".toList

/-- The file name of a rendition, as characters. -/
def chars (title qualifier extension : List Char) : List Char :=
  match core title with
  | [] => Text.lower (qualifier ++ '.' :: fallbackExtension)
  | c :: cs => Text.lower (qualifier ++ '-' :: (c :: cs) ++ '.' :: extension)

/-- The file name of a rendition of a source with the given title. -/
def derive (title qualifier extension : String) : String :=
  String.ofList (chars title.toList qualifier.toList extension.toList)

/-! ## §3 Small laws -/

/-- The core consists of ASCII letters and digits. -/
theorem isCore_of_mem_core {title : List Char} {c : Char} (h : c ∈ core title) :
    isCore c = true := by
  simp only [core, List.mem_filter] at h
  exact h.2

/-- The last segment has no separator. -/
theorem not_isSeparator_of_mem_lastSegment {title : List Char} {c : Char}
    (h : c ∈ lastSegment title) : isSeparator c = false := by
  have key := List.all_takeWhile (p := (! isSeparator ·)) (l := title.reverse)
  rw [List.all_eq_true] at key
  simpa using key c (by simpa [lastSegment] using h)

end Quicklook.FileName
