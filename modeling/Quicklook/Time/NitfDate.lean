import Quicklook.Time.Civil
import Quicklook.Text.Blank

/-!
# Dates in image files

The two forms in which a file gives a date and time: `CCYYMMDDhhmmss`, and the older
`DDhhmmssZMONYY` with a month abbreviation and a year of two digits.

The forms are read as sequences of fields. A number may have blanks before it and fewer
digits than its field is wide; a year of four digits may instead have a sign, and then as
many digits as follow. Letters and abbreviations stand where they stand.
-/

namespace Quicklook.Time

/-! ## §1 Fields -/

/-- A field of a date form. -/
inductive DateField where
  /-- The year, in four digits or with a sign. -/
  | year
  /-- The year in its century; 00 to 69 lie in the century of 2000, the others in that of
      1900. -/
  | shortYear
  | month
  /-- The month by the first three letters of its English name, in either case. -/
  | monthName
  | day
  | hour
  | minute
  | second
  | literal (c : Char)
deriving Repr, DecidableEq

/-- `CCYYMMDDhhmmss`. -/
def fullForm : List DateField :=
  [.year, .month, .day, .hour, .minute, .second]

/-- `DDhhmmssZMONYY`. -/
def dayFirstForm : List DateField :=
  [.day, .hour, .minute, .second, .literal 'Z', .monthName, .shortYear]

/-! ## §2 Reading a field -/

/-- The number that decimal digits write. -/
def digitsValue (ds : List Char) : Nat :=
  ds.foldl (fun n d => 10 * n + (d.toNat - '0'.toNat)) 0

/-- A number of one to `width` digits. -/
def readDigits (width : Nat) (s : List Char) : Option (Nat × List Char) :=
  match (s.takeWhile Char.isDigit).take width with
  | [] => none
  | ds => some (digitsValue ds, s.drop ds.length)

/-- A number of one to `width` digits after any blanks. -/
def readNumber (width : Nat) (s : List Char) : Option (Nat × List Char) :=
  readDigits width (Text.trimStart s)

/-- A year after any blanks: up to four digits, or a sign and all digits that follow. -/
def readYear (s : List Char) : Option (Int × List Char) :=
  match Text.trimStart s with
  | '-' :: rest => (readDigits rest.length rest).map fun (n, t) => (-(n : Int), t)
  | '+' :: rest => (readDigits rest.length rest).map fun (n, t) => ((n : Int), t)
  | rest => (readDigits 4 rest).map fun (n, t) => ((n : Int), t)

/-- The abbreviations of the months, in their order. -/
def monthNames : List (List Char) :=
  ["jan", "feb", "mar", "apr", "may", "jun", "jul", "aug", "sep", "oct", "nov", "dec"].map
    String.toList

/-- A month abbreviation. -/
def readMonthName (s : List Char) : Option (Nat × List Char) :=
  (monthNames.idxOf? ((s.take 3).map Char.toLower)).map fun i => (i + 1, s.drop 3)

/-- Reads a field and enters it into the date. -/
def DateField.read (c : Civil) (s : List Char) : DateField → Option (Civil × List Char)
  | .year => (readYear s).map fun (y, t) => ({ c with year := y }, t)
  | .shortYear => (readNumber 2 s).map fun (n, t) =>
      ({ c with year := (if n < 70 then 2000 else 1900) + n }, t)
  | .month => (readNumber 2 s).map fun (n, t) => ({ c with month := n }, t)
  | .monthName => (readMonthName s).map fun (n, t) => ({ c with month := n }, t)
  | .day => (readNumber 2 s).map fun (n, t) => ({ c with day := n }, t)
  | .hour => (readNumber 2 s).map fun (n, t) => ({ c with hour := n }, t)
  | .minute => (readNumber 2 s).map fun (n, t) => ({ c with minute := n }, t)
  | .second => (readNumber 2 s).map fun (n, t) => ({ c with second := n }, t)
  | .literal l => match s with
    | d :: t => if d = l then some (c, t) else none
    | [] => none

/-! ## §3 Reading a date -/

/-- Reads fields one after another. -/
def readFields (c : Civil) (s : List Char) : List DateField → Option (Civil × List Char)
  | [] => some (c, s)
  | f :: fs => match f.read c s with
    | some (c, t) => readFields c t fs
    | none => none

/-- A whole text in a form, as a date that exists. -/
def readForm (form : List DateField) (s : List Char) : Option Civil :=
  match readFields ⟨0, 0, 0, 0, 0, 0⟩ s form with
  -- Nothing may be left of the text.
  | some (c, []) => if c.Valid then some c else none
  | _ => none

/-- The date that a text gives in one of the two forms, blanks around it left out. -/
def readDate (s : List Char) : Option Civil :=
  let s := Text.trim s
  (readForm fullForm s).or (readForm dayFirstForm s)

/-- The instant that a text gives in one of the two forms. -/
def parseDate (raw : String) : Option Timestamp :=
  (readDate raw.toList).map Civil.timestamp

end Quicklook.Time
