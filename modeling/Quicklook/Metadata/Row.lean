import Quicklook.Catalog.Attribute
import Quicklook.Metadata.Country
import Quicklook.Time.NitfDate

/-!
# Rows of metadata tables

A row says under which attribute a field of a file is entered into the catalog, and how its
text is read. A field that is missing or blank gives nothing; a text that cannot be read is
a failure of its row alone.
-/

namespace Quicklook.Metadata

/-! ## §1 Readings -/

/-- How the text of a field is read. -/
inductive Reading where
  | text
  /-- As a security classification, whose letter is spelled out. -/
  | classification
  | integer
  /-- As a date; a text that is none gives nothing. -/
  | date
  /-- As a FIPS code that stands for one country. -/
  | country
deriving Repr, DecidableEq

/-- The kinds of values that attributes are declared with. -/
inductive ValueKind where
  | text
  | integer
  | date
deriving Repr, DecidableEq

/-- The name of a kind. -/
def ValueKind.name : ValueKind → String
  | .text => "Text"
  | .integer => "Integer"
  | .date => "Date"

/-- Why a row failed. -/
inductive ExtractError where
  | ambiguous (e : AmbiguousCode)
  | invalidInteger (field value : String)
deriving Repr, DecidableEq

/-- The text of the error. -/
def ExtractError.message : ExtractError → String
  | .ambiguous e => e.message
  | .invalidInteger field value => s!"Field {field} is not an integer: " ++ Text.quoted value

/-- What a row gives: a value, nothing, or a failure. -/
abbrev Extracted := Except ExtractError (Option Value)

/-! ## §2 Texts -/

/-- A security classification with its letter spelled out. -/
def spellOut (letter : String) : String :=
  if letter = "T" then "TOP_SECRET"
  else if letter = "S" then "SECRET"
  else if letter = "C" then "CONFIDENTIAL"
  else if letter = "R" then "RESTRICTED"
  else if letter = "U" then "UNCLASSIFIED"
  else letter

/-- The number that one or more digits write. -/
def natOfDigits (s : List Char) : Option Nat :=
  if s ≠ [] ∧ s.all Char.isDigit then some (Time.digitsValue s) else none

/-- The whole number of 64 bits that a text writes: digits after at most one sign. -/
def integerOf (s : List Char) : Option Int :=
  let n : Option Int := match s with
    | '-' :: ds => (natOfDigits ds).map fun n => -(n : Int)
    | '+' :: ds => (natOfDigits ds).map Int.ofNat
    | ds => (natOfDigits ds).map Int.ofNat
  n.filter fun n => Int64.minValue.toInt ≤ n && n ≤ Int64.maxValue.toInt

/-! ## §3 Rows -/

/-- A row: the attribute, the code of the field, how it is read, and what kind of values the
    attribute is declared with. -/
structure Row where
  name : String
  field : String
  reading : Reading
  kind : ValueKind
deriving Repr, DecidableEq

namespace Row

/-- Reads a text that is neither empty nor surrounded by blanks. -/
def read (row : Row) (resolve : CountryResolver) (raw : String) : Extracted :=
  match row.reading with
  | .text => .ok (some (.text raw))
  | .classification => .ok (some (.text (spellOut raw)))
  | .integer =>
    match integerOf raw.toList with
    | some n => .ok (some (.integer n))
    | none => .error (.invalidInteger row.field raw)
  | .date => .ok ((Time.parseDate raw).map .date)
  | .country =>
    match resolve.single raw with
    | .ok code => .ok (code.map .text)
    | .error e => .error (.ambiguous e)

/-- What the row makes of the text of its field. -/
def apply (row : Row) (resolve : CountryResolver) (field : Option String) : Extracted :=
  match field.map Text.trimmed with
  | some raw => if raw = "" then .ok none else row.read resolve raw
  | none => .ok none

end Row

end Quicklook.Metadata
