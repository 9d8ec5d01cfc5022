import Quicklook.Toml.Reader

/-!
# Quoted text in settings

Text in double quotes has escapes, text in single quotes has none. Three quotes in place of
one let a text run over several lines; up to two further quotes may then stand before the
closing three. Within such a text every line end counts as a line feed, one right after the
opening is left out, and in double quotes a backslash at the end of a line joins the lines
without the blanks between them.
-/

namespace Quicklook.Toml

/-! ## §1 Escapes -/

/-- What a backslash and a letter stand for. -/
def unescape? : Char → Option Char
  | 'b' => some '\x08'
  | 't' => some '\t'
  | 'n' => some '\n'
  | 'f' => some '\x0c'
  | 'r' => some '\r'
  | '"' => some '"'
  | '\\' => some '\\'
  | _ => none

/-- The value of a hexadecimal digit. -/
def hexDigit? (c : Char) : Option Nat :=
  if c.isDigit then some (c.toNat - '0'.toNat)
  else if 'a' ≤ c ∧ c ≤ 'f' then some (c.toNat - 'a'.toNat + 10)
  else if 'A' ≤ c ∧ c ≤ 'F' then some (c.toNat - 'A'.toNat + 10)
  else none

/-- The number that hexadecimal digits write. -/
def hexValue? (ds : List Char) : Option Nat :=
  ds.foldlM (fun n d => (hexDigit? d).map (16 * n + ·)) 0

/-- The character whose code point hexadecimal digits write. -/
def hexChar? (ds : List Char) : Option Char := do
  let n ← hexValue? ds
  if n.isValidChar then some (Char.ofNat n) else none

/-! ## §2 One line -/

/-- The rest of a text in double quotes; `read` is what was read of it, backwards. -/
def readEscaped (read : List Char) : List Char → Option (String × List Char)
  | [] => none
  | '"' :: s => some (String.ofList read.reverse, s)
  | '\\' :: 'u' :: a :: b :: c :: d :: s =>
    match hexChar? [a, b, c, d] with
    | some ch => readEscaped (ch :: read) s
    | none => none
  | '\\' :: 'U' :: a :: b :: c :: d :: e :: f :: g :: h :: s =>
    match hexChar? [a, b, c, d, e, f, g, h] with
    | some ch => readEscaped (ch :: read) s
    | none => none
  | '\\' :: e :: s =>
    match unescape? e with
    | some ch => readEscaped (ch :: read) s
    | none => none
  | c :: s => if isPlain c && c != '\\' then readEscaped (c :: read) s else none

/-- The rest of a text in single quotes. -/
def readLiteral (s : List Char) : Option (String × List Char) :=
  match s.dropWhile fun c => isPlain c && c != '\'' with
  | '\'' :: rest => some (String.ofList (s.takeWhile fun c => isPlain c && c != '\''), rest)
  | _ => none

/-! ## §3 Several lines -/

/-- The end of a text over several lines after its closing quotes: the next two quotes
    still belong to it. -/
def closeLines (quote : Char) (read s : List Char) : String × List Char :=
  let extra := (s.take 2).takeWhile (· == quote)
  (String.ofList (read.reverse ++ extra), s.drop extra.length)

/-- The rest of a text in three double quotes; `joining` says whether blanks and line ends
    are left out because of a backslash before them. -/
def readEscapedLines (joining : Bool) (read : List Char) :
    List Char → Option (String × List Char)
  | [] => none
  | '"' :: '"' :: '"' :: s => some (closeLines '"' read s)
  | '\\' :: 'u' :: a :: b :: c :: d :: s =>
    match hexChar? [a, b, c, d] with
    | some ch => readEscapedLines false (ch :: read) s
    | none => none
  | '\\' :: 'U' :: a :: b :: c :: d :: e :: f :: g :: h :: s =>
    match hexChar? [a, b, c, d, e, f, g, h] with
    | some ch => readEscapedLines false (ch :: read) s
    | none => none
  | '\\' :: e :: s =>
    match unescape? e with
    | some ch => readEscapedLines false (ch :: read) s
    | none =>
      -- Only blanks may stand between the backslash and the end of the line.
      if (afterNewline? (skipBlanks (e :: s))).isSome then readEscapedLines true read (e :: s)
      else none
  -- A carriage return is no part of the text before a line feed, and no text anywhere else.
  | '\r' :: '\n' :: s => readEscapedLines joining (if joining then read else '\n' :: read) s
  | c :: s =>
    if joining && (isLayout c || c == '\n') then readEscapedLines true read s
    else if (isPlain c || c == '\n') && c != '\\' then readEscapedLines false (c :: read) s
    else none

/-- The rest of a text in three single quotes. -/
def readLiteralLines (read : List Char) : List Char → Option (String × List Char)
  | [] => none
  | '\'' :: '\'' :: '\'' :: s => some (closeLines '\'' read s)
  | '\r' :: '\n' :: s => readLiteralLines ('\n' :: read) s
  | c :: s => if isPlain c || c == '\n' then readLiteralLines (c :: read) s else none

/-- The text after its opening quotes, without a line end right there. -/
def afterOpening (s : List Char) : List Char :=
  (afterNewline? s).getD s

/-- A text in quotes. -/
def readQuoted : Reader String
  | '"' :: '"' :: '"' :: s => readEscapedLines false [] (afterOpening s)
  | '"' :: s => readEscaped [] s
  | '\'' :: '\'' :: '\'' :: s => readLiteralLines [] (afterOpening s)
  | '\'' :: s => readLiteral s
  | _ => none

/-! ## §4 Keys -/

/-- Whether a character may stand in a key without quotes. -/
def isBare (c : Char) : Bool :=
  c.isAlphanum || c == '_' || c == '-'

/-- A part of a key: in quotes, on one line, or bare. -/
def readKeyPart : Reader String
  | '"' :: s => readEscaped [] s
  | '\'' :: s => readLiteral s
  | s =>
    match s.takeWhile isBare with
    | [] => none
    | part => some (String.ofList part, s.drop part.length)

/-- The most parts of a key. -/
def maxKeyParts : Nat :=
  79

/-- A key of at most so many parts with dots between them, and the blanks around it. -/
def readKeyParts : Nat → Reader (List String)
  | 0, _ => none
  | n + 1, s => do
    let (part, s) ← readKeyPart (skipBlanks s)
    match skipBlanks s with
    | '.' :: s => do
      let (parts, s) ← readKeyParts n s
      some (part :: parts, s)
    | s => some ([part], s)

/-- A key. -/
def readKey : Reader (List String) :=
  readKeyParts maxKeyParts

end Quicklook.Toml
