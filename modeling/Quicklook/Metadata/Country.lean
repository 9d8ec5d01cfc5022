import Quicklook.Event
import Quicklook.Text.Blank
import Quicklook.Text.Pieces
import Std.Data.ExtTreeMap

/-!
# Country codes

Files name countries by FIPS codes, the catalog by ISO 3166 alpha-3 codes. A FIPS code may
stand for no country, for one, or for several; whoever needs exactly one is told when there
are more.

A table is read from lines `FIPS=ISO[,ISO...]`. The last line of a code counts, as a whole.
-/

namespace Quicklook

/-! ## §1 Resolving a code -/

/-- The alpha-3 codes that a FIPS code stands for, in order. -/
abbrev CountryResolver := String → List String

/-- More than one country where one was asked for. -/
structure AmbiguousCode where
  fips : String
  /-- What it may stand for. -/
  candidates : List String
deriving Repr, DecidableEq

/-- The text of the error. -/
def AmbiguousCode.message (e : AmbiguousCode) : String :=
  "FIPS code " ++ Text.quoted e.fips ++ " maps to more than one ISO 3166 alpha-3 code: " ++
    Text.quotedList e.candidates

/-- The one alpha-3 code that a FIPS code stands for: none for the empty code and for one
    that stands for nothing. -/
def CountryResolver.single (resolve : CountryResolver) (fips : String) :
    Except AmbiguousCode (Option String) :=
  if fips = "" then .ok none
  else
    match resolve fips with
    | [] => .ok none
    | [code] => .ok (some code)
    | codes => .error ⟨fips, codes⟩

/-! ## §2 Tables -/

/-- Alpha-3 codes by FIPS code. -/
structure CountryTable where
  codes : Std.ExtTreeMap String (List String)
deriving DecidableEq

namespace CountryTable

/-- The table without keys. -/
def empty : CountryTable :=
  ⟨∅⟩

/-- The table with the codes of a key in the place of any earlier ones. -/
def insert (t : CountryTable) (key : String) (codes : List String) : CountryTable :=
  ⟨t.codes.insert key codes⟩

/-- The table of some keys and their codes; the last pair of a key counts. -/
def ofList (pairs : List (String × List String)) : CountryTable :=
  pairs.foldl (fun t (key, codes) => t.insert key codes) empty

/-- The number of keys. -/
def size (t : CountryTable) : Nat :=
  t.codes.size

/-- Whether there are no keys. -/
def isEmpty (t : CountryTable) : Bool :=
  t.codes.isEmpty

/-- The codes of a key; none for a key that is not in the table. -/
def resolve (t : CountryTable) : CountryResolver := fun key =>
  (t.codes[key]?).getD []

/-- Inserted codes are found under their key, and no other look-up changes. -/
theorem resolve_insert (t : CountryTable) (key : String) (codes : List String)
    (other : String) :
    (t.insert key codes).resolve other = if key = other then codes else t.resolve other := by
  simp only [resolve, insert, Std.ExtTreeMap.getElem?_insert]
  by_cases h : key = other <;> simp [h]

/-! ## §3 Reading a table -/

/-- What a line of a table says. -/
inductive Line where
  /-- Nothing: it is blank or a comment. -/
  | blank
  | entry (key : List Char) (codes : List (List Char))
  /-- Nothing that can be read; the trimmed line. -/
  | unreadable (line : List Char)
deriving Repr, DecidableEq

/-- The codes between commas, trimmed, without blank ones. -/
def readCodes (s : List Char) : List (List Char) :=
  ((Text.pieces ',' s).map Text.trim).filter (! ·.isEmpty)

/-- Reads a line. Comments start with `#` or `!`; the first `=` or `:` ends the key. -/
def readLine (line : List Char) : Line :=
  let line := Text.trim line
  match line with
  | [] | '#' :: _ | '!' :: _ => .blank
  | _ =>
    match Text.cutAt (fun c => c == '=' || c == ':') line with
    | none => .unreadable line
    | some (key, codes) => .entry (Text.trim key) (readCodes codes)

/-- The table with what a line says entered into it. `number` counts lines from one. -/
def enter (t : CountryTable) (number : Nat) : Line → Logged CountryTable
  | .blank => pure t
  | .entry key codes => pure (t.insert (String.ofList key) (codes.map String.ofList))
  | .unreadable line => do
    Logged.report (.countryLineIgnored number (String.ofList line))
    pure t

/-- Enters lines one after another. -/
def enterLines (t : CountryTable) (number : Nat) : List (List Char) → Logged CountryTable
  | [] => pure t
  | line :: lines => do
    let t ← enter t number (readLine line)
    enterLines t (number + 1) lines

/-- The table that a text gives. -/
def ofText (text : String) : Logged CountryTable :=
  enterLines empty 1 (Text.lines text.toList)

end CountryTable

end Quicklook
