import Quicklook.Toml.Document

/-!
# Layers

A settings file that is to be laid upon another. Such a file may write a date as a table
too: one whose first entry has the text of the date under `dateKey`. What follows in that
table does not count. A table that begins like that and has anything else there cannot be
read, and nor can the file.

Main statements: a date's table is read as its date (`withDates?_dateTable`), a table that
begins with another key stays a table (`withDates?_table_of_ne`).
-/

namespace Quicklook.Toml

/-! ## §1 Dates by themselves -/

/-- The date that a text writes on its own. -/
def Datetime.ofText? (text : String) : Option Datetime :=
  match readDatetime text.toList with
  | some (d, []) => some d
  | _ => none

/-- The date in an entry under `dateKey`: only a text has one. -/
def Value.date? : Value → Option Datetime
  | .string text => Datetime.ofText? text
  | _ => none

/-! ## §2 Tables that stand for dates -/

mutual

/-- The value with dates in the place of the tables that stand for them. -/
def Value.withDates? : Value → Option Value
  | .table ((key, v) :: es) =>
    if key = dateKey then v.date?.map .datetime
    else do
      let v ← v.withDates?
      let es ← entriesWithDates? es
      some (.table ((key, v) :: es))
  | .array vs => (valuesWithDates? vs).map .array
  | v => some v

/-- The same for each value in a list. -/
def valuesWithDates? : List Value → Option (List Value)
  | [] => some []
  | v :: vs => do
    let v ← v.withDates?
    let vs ← valuesWithDates? vs
    some (v :: vs)

/-- The same for the value in each entry, whatever its key. -/
def entriesWithDates? : List (String × Value) → Option (List (String × Value))
  | [] => some []
  | (key, v) :: es => do
    let v ← v.withDates?
    let es ← entriesWithDates? es
    some ((key, v) :: es)

end

/-- A table that begins with the text of a date stands for the date. -/
theorem withDates?_dateTable {text : String} {d : Datetime} (h : Datetime.ofText? text = some d)
    (es : List (String × Value)) :
    (Value.table ((dateKey, .string text) :: es)).withDates? = some (.datetime d) := by
  simp [Value.withDates?, Value.date?, h]

/-- A table that begins with another key stays a table: only the values in it change. -/
theorem withDates?_table_of_ne {key : String} (h : key ≠ dateKey) (v : Value)
    (es : List (String × Value)) :
    (Value.table ((key, v) :: es)).withDates? =
      (entriesWithDates? ((key, v) :: es)).map .table := by
  simp only [Value.withDates?, h, if_false, entriesWithDates?]
  cases v.withDates? <;> cases entriesWithDates? es <;> rfl

/-! ## §3 Reading -/

/-- The value of a settings text as a layer; nothing if the text cannot be read, contradicts
    itself, or has a table that begins like a date and is none. -/
def Value.ofLayerText? (text : String) : Option Value :=
  (Value.ofText? text).bind Value.withDates?

end Quicklook.Toml
