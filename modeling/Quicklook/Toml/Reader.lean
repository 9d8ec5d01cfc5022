/-!
# Readers

Readers of settings text, and the layout between the words: blanks, comments and line ends.
A reader takes what it reads from the front of a text and gives the rest.
-/

namespace Quicklook.Toml

/-- What is read from the front of a text, and the rest. -/
abbrev Reader (α : Type) := List Char → Option (α × List Char)

/-! ## §1 Words -/

/-- The text after a word that it begins with. -/
def afterWord? : List Char → List Char → Option (List Char)
  | [], s => some s
  | c :: word, d :: s => if c = d then afterWord? word s else none
  | _ :: _, [] => none

/-- A word is passed exactly in a text that begins with it. -/
theorem afterWord?_eq_some_iff {word s rest : List Char} :
    afterWord? word s = some rest ↔ s = word ++ rest := by
  induction word generalizing s with
  | nil => simp [afterWord?]
  | cons c word ih =>
    cases s with
    | nil => simp [afterWord?]
    | cons d s => by_cases h : c = d <;> simp_all [afterWord?, eq_comm]

/-! ## §2 Layout -/

/-- Whether a character separates words on a line. -/
def isLayout (c : Char) : Bool :=
  c == ' ' || c == '\t'

/-- Whether a character may stand in text: no control but the tab. -/
def isPlain (c : Char) : Bool :=
  c == '\t' || (32 ≤ c.toNat && c.toNat != 127)

/-- The text without the blanks at its front. -/
def skipBlanks (s : List Char) : List Char :=
  s.dropWhile isLayout

/-- The text after a line feed, with or without a carriage return before it. -/
def afterNewline? : List Char → Option (List Char)
  | '\n' :: s => some s
  | '\r' :: '\n' :: s => some s
  | _ => none

/-- The text after the rest of a line on which only a comment may stand. -/
def afterLine? (s : List Char) : Option (List Char) :=
  let rest := match skipBlanks s with
    | '#' :: comment => comment.dropWhile isPlain
    | rest => rest
  match rest with
  | [] => some []
  | _ => afterNewline? rest

/-- The text without the blanks, comments and line ends at its front; `comment` says whether
    it begins within a comment. -/
def skipLayout (comment : Bool) : List Char → List Char
  | [] => []
  | '\n' :: s => skipLayout false s
  | '\r' :: '\n' :: s => skipLayout false s
  | c :: s =>
    if comment then
      if isPlain c then skipLayout true s else c :: s
    else if isLayout c then skipLayout false s
    else if c = '#' then skipLayout true s
    else c :: s

end Quicklook.Toml
