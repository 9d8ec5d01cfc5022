import Quicklook.Toml.Number
import Quicklook.Toml.Section

/-!
# Statements of a settings file

The lines of a settings file: entries with a key and a value, headers of tables, and headers
of array elements. Arrays and tables in braces nest up to a fixed depth.
-/

namespace Quicklook.Toml

/-! ## §1 Values -/

/-- The deepest nesting of arrays and tables in braces. -/
def maxNesting : Nat :=
  79

/-- Yes, no, a number, a date, or a text. -/
def readScalar : Reader Value := fun s =>
  match s.head? with
  | some '"' | some '\'' => (readQuoted s).map fun (t, rest) => (.string t, rest)
  | some 't' => (afterWord? "true".toList s).map fun rest => (.boolean true, rest)
  | some 'f' => (afterWord? "false".toList s).map fun rest => (.boolean false, rest)
  | _ => readNumber s

/-- The values of an array up to its end. A comma may follow the last one; blanks, comments
    and line ends may stand anywhere between. `found` holds the values read so far,
    backwards, and there are at most `fuel` more. -/
def readElements (item : Reader Value) : Nat → List Value → Reader (List Value)
  | 0, _, _ => none
  | fuel + 1, found, s =>
    match skipLayout false s with
    | ']' :: rest => some (found.reverse, rest)
    | s => do
      let (v, s) ← item s
      -- After a comma the array may end all the same.
      match skipLayout false s with
      | ',' :: s => readElements item fuel (v :: found) s
      | ']' :: rest => some ((v :: found).reverse, rest)
      | _ => none

/-- A key, an equals sign, and a value. -/
def readEntry (item : Reader Value) : Reader (List String × Value) := fun s => do
  let (path, s) ← readKey s
  match s with
  | '=' :: s => do
    let (v, rest) ← item (skipBlanks s)
    some ((path, v), rest)
  | _ => none

/-- The entries of a table in braces up to its end, entered into what there is of it. They
    stand on one line and no comma follows the last one. -/
def readInline (item : Reader Value) : Nat → Section → Reader Section
  | 0, _, _ => none
  | fuel + 1, t, s => do
    let ((path, v), s) ← readEntry item s
    let t ← t.enter path v
    match skipBlanks s with
    | ',' :: s => readInline item fuel t s
    | '\x7d' :: rest => some (t, rest)
    | _ => none

/-- A table in braces after its opening. -/
def readBraces (item : Reader Value) : Reader Value := fun s =>
  match skipBlanks s with
  | '\x7d' :: rest => some (.table [], rest)
  | s => (readInline item s.length (.empty .header) s).map fun (t, rest) => (t.toValue, rest)

/-- A value that nests at most so deep. -/
def readNested : Nat → Reader Value
  | depth + 1, '[' :: s =>
    (readElements (readNested depth) (s.length + 1) [] s).map fun (vs, rest) =>
      (.array vs, rest)
  | depth + 1, '\x7b' :: s => readBraces (readNested depth) s
  | _, s => readScalar s

/-- A value. -/
def readValue : Reader Value :=
  readNested maxNesting

/-! ## §2 Statements -/

/-- What a line says. -/
inductive Statement where
  | entry (path : List String) (v : Value)
  /-- The entries of a table follow. -/
  | table (path : List String)
  /-- The entries of one more array element follow. -/
  | element (path : List String)

/-- A header after its opening bracket. -/
def readHeader : Reader Statement
  | '[' :: s =>
    match readKey s with
    | some (path, ']' :: ']' :: rest) => some (.element path, rest)
    | _ => none
  | s =>
    match readKey s with
    | some (path, ']' :: rest) => some (.table path, rest)
    | _ => none

/-- A statement. -/
def readStatement : Reader Statement
  | '[' :: s => readHeader s
  | s => (readEntry readValue s).map fun ((path, v), rest) => (.entry path v, rest)

/-- All statements of a text, each on lines of its own; `found` holds those read so far,
    backwards, and there are at most `fuel` more. -/
def readStatements : Nat → List Statement → List Char → Option (List Statement)
  | 0, _, _ => none
  | fuel + 1, found, s =>
    match skipBlanks s with
    | [] => some found.reverse
    | s =>
      match afterLine? s with
      -- A line with nothing on it but a comment.
      | some rest => readStatements fuel found rest
      | none => do
        let (st, rest) ← readStatement s
        let rest ← afterLine? rest
        readStatements fuel (st :: found) rest

/-- All statements of a text. A byte order mark may stand in front of it. -/
def statements (s : List Char) : Option (List Statement) :=
  let s := match s with
    | '\ufeff' :: rest => rest
    | _ => s
  readStatements (s.length + 1) [] s

end Quicklook.Toml
