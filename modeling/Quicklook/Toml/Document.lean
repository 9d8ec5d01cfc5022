import Quicklook.Toml.Statement

/-!
# Documents

A settings file as a value: its statements carried out one after another on a table that is
empty at first. A header says where the entries after it go.
-/

namespace Quicklook.Toml

/-- A document under construction. -/
structure Draft where
  root : Section
  /-- The path of the table that entries go to. -/
  place : List String

namespace Draft

/-- The document without statements. -/
def empty : Draft :=
  ⟨.empty .header, []⟩

/-- The document after a header: the last part of its path is opened in the table that the
    parts before it lead to. -/
def header (d : Draft) (path : List String) (openAt : String → Section → Option Section) :
    Option Draft := do
  let key ← path.getLast?
  -- Tables that are missing on the way are implied, and may get their own headers later.
  let root ← d.root.change .implied (openAt key) path.dropLast
  some ⟨root, path⟩

/-- The document after a statement; nothing if the statement contradicts an earlier one. -/
def apply (d : Draft) : Statement → Option Draft
  | .entry path v => (d.root.change .implied (Section.enter path v) d.place).map (⟨·, d.place⟩)
  | .table path => d.header path Section.openTable
  | .element path => d.header path Section.openElement

end Draft

/-- The value of a settings text; nothing if the text cannot be read or contradicts itself. -/
def Value.ofText? (text : String) : Option Value := do
  let sts ← statements text.toList
  let d ← sts.foldlM Draft.apply Draft.empty
  some d.root.toValue

end Quicklook.Toml
