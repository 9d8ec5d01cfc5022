import Quicklook.Text.Unprintable

/-!
# Quoted text

Text inside double quotes, as it stands in messages: quotes and backslashes are escaped,
the common controls have short escapes, and every other character that would not be seen
as itself is written by its code point in hexadecimal.
-/

namespace Quicklook.Text

/-- A natural number in lower-case hexadecimal, without leading zeros. -/
def hex (n : Nat) : List Char :=
  Nat.toDigits 16 n

/-- What stands for one character between the quotes. -/
def quoteChar (c : Char) : List Char :=
  if c = '"' then ['\\', '"']
  else if c = '\\' then ['\\', '\\']
  else if c = '\t' then ['\\', 't']
  else if c = '\n' then ['\\', 'n']
  else if c = '\r' then ['\\', 'r']
  else if c = '\x00' then ['\\', '0']
  else if isUnprintable c then ['\\', 'u', '\x7b'] ++ hex c.toNat ++ ['\x7d']
  else [c]

/-- A text in double quotes. -/
def quote (s : List Char) : List Char :=
  '"' :: s.flatMap quoteChar ++ ['"']

/-- `quote` on strings. -/
def quoted (s : String) : String :=
  String.ofList (quote s.toList)

/-- Quoted texts in brackets, with a comma and a space between them. -/
def quotedList (ts : List String) : String :=
  "[" ++ ", ".intercalate (ts.map quoted) ++ "]"

end Quicklook.Text
