import Quicklook.Toml.Value
import Quicklook.Toml.Quoted
import Quicklook.Time.Civil
import Quicklook.Text.Pieces

/-!
# Numbers and dates in settings

Whole numbers in four bases, floating-point numbers, and dates with times. Underscores may
stand between digits. A whole number that does not fit into 64 bits, and a positive number
beyond the floating-point range, are not numbers at all.
-/

namespace Quicklook.Toml

/-! ## §1 Digits -/

/-- One or more digits of a class, with single underscores between them; the digits alone. -/
def readDigits (digit : Char → Bool) (s : List Char) : Option (List Char × List Char) :=
  -- A group is empty where an underscore begins, ends or follows another.
  let run := s.takeWhile fun c => digit c || c == '_'
  let groups := Text.pieces '_' run
  if groups.all (! ·.isEmpty) then some (groups.flatten, s.drop run.length) else none

/-- Decimal digits without a zero in front of others. -/
def readWhole (s : List Char) : Option (List Char × List Char) :=
  (readDigits Char.isDigit s).filter fun (ds, _) => ds.head? != some '0' || ds.length == 1

/-- Whether a minus sign stands in front, and the text after a sign. -/
def readSign : List Char → Bool × List Char
  | '-' :: s => (true, s)
  | '+' :: s => (false, s)
  | s => (false, s)

/-! ## §2 Whole numbers -/

/-- A whole number of 64 bits. -/
def fit? (n : Int) : Option Int64 :=
  if Int64.minValue.toInt ≤ n ∧ n ≤ Int64.maxValue.toInt then some (Int64.ofInt n) else none

/-- The number that digits write in a base up to sixteen. -/
def digitsIn (base : Nat) (ds : List Char) : Nat :=
  ds.foldl (fun n d => base * n + (hexDigit? d).getD 0) 0

/-- Whether a character is a digit in a base up to sixteen. -/
def isDigitIn (base : Nat) (c : Char) : Bool :=
  match hexDigit? c with
  | some n => n < base
  | none => false

/-- A whole number in a base, after what tells the base. -/
def readBased (base : Nat) (s : List Char) : Option (Value × List Char) := do
  let (ds, rest) ← readDigits (isDigitIn base) s
  let n ← fit? (digitsIn base ds)
  some (.integer n, rest)

/-- A whole number. -/
def readInteger : Reader Value
  | '0' :: 'x' :: s => readBased 16 s
  | '0' :: 'o' :: s => readBased 8 s
  | '0' :: 'b' :: s => readBased 2 s
  | s => do
    let (minus, s) := readSign s
    let (ds, rest) ← readWhole s
    let n : Int := digitsIn 10 ds
    let n ← fit? (if minus then -n else n)
    some (.integer n, rest)

/-! ## §3 Floating-point numbers -/

/-- `digits · 10^exponent`, rounded to the nearest number. Far outside of the range only the
    order of magnitude counts. -/
def floatOf (digits : Nat) (exponent : Int) : Float :=
  let order := (Nat.toDigits 10 digits).length + exponent
  if digits = 0 ∨ order < -400 then 0
  else if 400 < order then 1 / 0
  else Float.ofScientific digits (exponent < 0) exponent.natAbs

/-- A fraction: a point and digits. -/
def readFraction : Reader (List Char)
  | '.' :: s => readDigits Char.isDigit s
  | _ => none

/-- An exponent: the letter, a sign, and digits. -/
def readExponent : Reader Int
  | c :: s =>
    if c = 'e' ∨ c = 'E' then do
      let (minus, s) := readSign s
      let (ds, rest) ← readDigits Char.isDigit s
      let n : Int := digitsIn 10 ds
      some (if minus then -n else n, rest)
    else none
  | [] => none

/-- A number with a fraction, an exponent, or both. -/
def readDecimal : Reader Value := fun s => do
  let (minus, s) := readSign s
  let (whole, s) ← readWhole s
  let (fraction, exponent, rest) ← match readFraction s with
    | some (fraction, s) =>
      match readExponent s with
      | some (exponent, rest) => some (fraction, exponent, rest)
      | none => some (fraction, 0, s)
    | none => (readExponent s).map fun (exponent, rest) => ([], exponent, rest)
  -- The point moves behind the last digit of the fraction.
  let x := floatOf (digitsIn 10 (whole ++ fraction)) (exponent - fraction.length)
  -- Beyond the range a number with a minus sign is minus infinity; one without is refused.
  if minus then some (.float (-x), rest)
  else if x.isFinite then some (.float x, rest)
  else none

/-- Infinity, or what is not a number. -/
def readSpecial : Reader Value := fun s =>
  let (minus, s) := readSign s
  let signed (x : Float) : Value := .float (if minus then -x else x)
  match afterWord? "inf".toList s with
  | some rest => some (signed (1 / 0), rest)
  | none => (afterWord? "nan".toList s).map fun rest => (signed (0 / 0), rest)

/-! ## §4 Dates and times -/

/-- The number that digits write, within bounds. -/
def bounded? (lo hi : Nat) (ds : List Char) : Option Nat :=
  let n := digitsIn 10 ds
  if ds.all Char.isDigit ∧ lo ≤ n ∧ n ≤ hi then some n else none

/-- A date that exists. -/
def readDate : Reader CalendarDate
  | a :: b :: c :: d :: '-' :: e :: f :: '-' :: g :: h :: rest => do
    let year ← bounded? 0 9999 [a, b, c, d]
    let month ← bounded? 1 12 [e, f]
    let day ← bounded? 1 (Time.daysInMonth year month) [g, h]
    some (⟨year, month, day⟩, rest)
  | _ => none

/-- The nanoseconds of a fraction, after its point: nine digits, of which missing ones are
    zeros; digits beyond the ninth do not count. -/
def readNanos : Reader Nat := fun s =>
  match s.takeWhile Char.isDigit with
  | [] => none
  | ds => some (digitsIn 10 ((ds.take 9).rightpad 9 '0'), s.drop ds.length)

/-- A time of day. -/
def readTime : Reader ClockTime
  | a :: b :: ':' :: c :: d :: ':' :: e :: f :: s => do
    let hour ← bounded? 0 23 [a, b]
    let minute ← bounded? 0 59 [c, d]
    let second ← bounded? 0 60 [e, f]
    match s with
    | '.' :: s => (readNanos s).map fun (nanos, rest) => (⟨hour, minute, second, nanos⟩, rest)
    | rest => some (⟨hour, minute, second, 0⟩, rest)
  | _ => none

/-- An offset from universal time. -/
def readOffset : Reader ZoneOffset
  | 'Z' :: rest => some (.zulu, rest)
  | 'z' :: rest => some (.zulu, rest)
  | sign :: a :: b :: ':' :: c :: d :: rest => do
    let hours ← bounded? 0 23 [a, b]
    let minutes ← bounded? 0 59 [c, d]
    let n : Int := hours * 60 + minutes
    if sign = '+' then some (.minutes n, rest)
    else if sign = '-' then some (.minutes (-n), rest)
    else none
  | _ => none

/-- The time that may follow a date, after a `T` or a blank. -/
def readTimeAfterDate : Reader ClockTime
  | c :: s => if c = 'T' ∨ c = 't' ∨ c = ' ' then readTime s else none
  | [] => none

/-- A date, a time, or both. -/
def readDatetime : Reader Datetime := fun s =>
  match readDate s with
  | none => (readTime s).map fun (t, rest) => (.time t, rest)
  | some (d, s) =>
    match readTimeAfterDate s with
    -- What follows the date is no time: a blank there is layout.
    | none => some (.date d, s)
    | some (t, s) =>
      match readOffset s with
      | none => some (.both d t none, s)
      | some (offset, rest) => some (.both d t (some offset), rest)

/-- A number or a date. -/
def readNumber : Reader Value := fun s =>
  ((readDatetime s).map fun (d, rest) => (Value.datetime d, rest)) <|>
    readDecimal s <|> readSpecial s <|> readInteger s

end Quicklook.Toml
