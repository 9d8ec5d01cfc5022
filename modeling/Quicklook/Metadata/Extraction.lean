import Quicklook.Metadata.Table
import Quicklook.Catalog.Record

/-!
# Extractions

What a table makes of the fields of a file: the values of the rows that gave one and the
failures of those that failed, both in table order. Every row is worked through on its own.
-/

namespace Quicklook.Metadata

/-- The fields of a file by their codes. -/
abbrev Fields := String → Option String

/-- What was extracted, in table order. -/
structure Extraction where
  values : List (String × Value)
  failures : List (String × ExtractError)
deriving Repr, DecidableEq

namespace Extraction

/-- Nothing extracted. -/
def empty : Extraction :=
  ⟨[], []⟩

/-- What was extracted first, and then what was extracted next. -/
def append (a b : Extraction) : Extraction :=
  ⟨a.values ++ b.values, a.failures ++ b.failures⟩

/-- The value of an attribute. -/
def value? (e : Extraction) (name : String) : Option Value :=
  (e.values.find? (·.1 == name)).map (·.2)

/-- The failure of an attribute. -/
def failure? (e : Extraction) (name : String) : Option ExtractError :=
  (e.failures.find? (·.1 == name)).map (·.2)

/-- The record with every extracted value in the place of the attribute of its name. -/
def enterInto (e : Extraction) (r : Record) : Record :=
  e.values.foldl (fun r (name, v) => r.set (.single name v)) r

/-- What one row adds. -/
def ofRow (name : String) : Extracted → Extraction
  | .ok (some v) => ⟨[(name, v)], []⟩
  | .ok none => empty
  | .error e => ⟨[], [(name, e)]⟩

end Extraction

/-- What a row makes of the fields of a file; a failure is reported. -/
def Row.extract (row : Row) (resolve : CountryResolver) (fields : Fields) :
    Logged Extraction := do
  let result := row.apply resolve (fields row.field)
  match result with
  | .error e => Logged.report (.attributeFailed row.name e.message)
  | .ok _ => pure ()
  pure (Extraction.ofRow row.name result)

/-- What a table makes of the fields of a file. -/
def Table.extract (resolve : CountryResolver) (fields : Fields) : Table → Logged Extraction
  | [] => pure .empty
  | row :: rows => do
    let first ← row.extract resolve fields
    let rest ← Table.extract resolve fields rows
    pure (first.append rest)

end Quicklook.Metadata
