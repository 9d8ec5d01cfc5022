import Quicklook.Toml.Value

/-!
# Tables under construction

A table of a settings file is put together piece by piece: by a header of its own, by the
headers of tables inside of it, and by keys with dots. Each table may be written in one way
only, so a table under construction remembers how it came about.

* A table with a header of its own is complete: no dotted key from outside adds to it.
* A table that only the headers of inner tables imply may still get a header.
* A table that dotted keys made gets entries from dotted keys only, and never a header.
-/

namespace Quicklook.Toml

/-! ## §1 Tables under construction -/

/-- How a table came about. -/
inductive Origin where
  /-- By its own header, as an element of an array, in braces, or as the whole document. -/
  | header
  /-- By the header of a table inside of it. -/
  | implied
  /-- By a dotted key. -/
  | dotted
deriving Repr, DecidableEq

mutual

/-- What stands under a key so far. -/
inductive Node where
  | value (v : Value)
  | table (t : Section)
  /-- The tables of an array, each written under a header. -/
  | elements (ts : List Section)

/-- A table so far. -/
inductive Section where
  | mk (origin : Origin) (entries : List (String × Node))

end

namespace Section

/-- How the table came about. -/
def origin : Section → Origin
  | .mk o _ => o

/-- The entries so far. -/
def entries : Section → List (String × Node)
  | .mk _ es => es

/-- A table without entries. -/
def empty (o : Origin) : Section :=
  .mk o []

/-- What stands under a key. -/
def find? (t : Section) (key : String) : Option Node :=
  Entries.find? t.entries key

/-- The table with something put under a key. -/
def put (t : Section) (key : String) (n : Node) : Section :=
  .mk t.origin (Entries.put t.entries key n)

/-- The table with something put under a key, behind all other entries. -/
def putLast (t : Section) (key : String) (n : Node) : Section :=
  .mk t.origin (Entries.erase t.entries key ++ [(key, n)])

/-! ## §2 Changing a table inside of a table -/

/-- Changes the table that a path leads to. Of an array it leads to the last element.
    Tables that are missing on the way come about in the way `made`; if that is by a dotted
    key, the path leads through no table that has a header. -/
def change (made : Origin) (f : Section → Option Section) : List String → Section →
    Option Section
  | [], t => f t
  | key :: path, t =>
    match t.find? key with
    | none => (change made f path (.empty made)).map fun u => t.put key (.table u)
    | some (.table u) =>
      -- A table with a header is complete for the dotted keys of other tables.
      if made = .dotted ∧ u.origin = .header then none
      else (change made f path u).map fun u => t.put key (.table u)
    | some (.elements us) =>
      -- The element that is still open is the last one.
      match us.getLast? with
      | none => none
      | some u => (change made f path u).map fun u => t.put key (.elements (us.dropLast ++ [u]))
    | some (.value _) => none

/-- Enters a value under a key that is still free. -/
def enterHere (key : String) (v : Value) (t : Section) : Option Section :=
  if (t.find? key).isSome then none else some (t.put key (.value v))

/-- Enters a value under a key, which may have dots; the table that a dotted key leads to
    must have come about by dotted keys. -/
def enter (path : List String) (v : Value) (t : Section) : Option Section :=
  match path.getLast? with
  | none => none
  | some key =>
    match path.dropLast with
    | [] => enterHere key v t
    | outer =>
      change .dotted (fun u => if u.origin = .dotted then enterHere key v u else none) outer t

/-- Opens the table of a header. A table that was implied so far moves behind its
    neighbours. -/
def openTable (key : String) (t : Section) : Option Section :=
  match t.find? key with
  | none => some (t.put key (.table (.empty .header)))
  -- From now on the table counts as one with a header of its own, and so cannot get another.
  | some (.table (.mk .implied es)) => some (t.putLast key (.table (.mk .header es)))
  | some _ => none

/-- Opens one more element of an array. -/
def openElement (key : String) (t : Section) : Option Section :=
  match t.find? key with
  | none => some (t.put key (.elements [.empty .header]))
  | some (.elements us) => some (t.put key (.elements (us ++ [.empty .header])))
  | some _ => none

end Section

/-! ## §3 Finished tables -/

mutual

/-- What stands under a key, as a value. -/
def Node.toValue : Node → Value
  | .value v => v
  | .table t => t.toValue
  | .elements ts => .array (sectionValues ts)

/-- A table as a value. -/
def Section.toValue : Section → Value
  | .mk _ es => .table (nodeValues es)

/-- Tables as values. -/
def sectionValues : List Section → List Value
  | [] => []
  | t :: ts => t.toValue :: sectionValues ts

/-- Entries as entries of a value. -/
def nodeValues : List (String × Node) → List (String × Value)
  | [] => []
  | (key, n) :: es => (key, n.toValue) :: nodeValues es

end

end Quicklook.Toml
