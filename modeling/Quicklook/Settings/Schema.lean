import Quicklook.Toml.Value
import Quicklook.Text.Quoted
import Quicklook.Decimal.Shortest

/-!
# Schemas

How a group of settings is read off a value: a schema lists its fields by name, and a value
fills the fields that it mentions. A table does so by name and refuses names that are not in
the schema; an array does so in the order of the schema. Fields that are not mentioned keep
their defaults.
-/

namespace Quicklook

open Toml (Entries)

/-! ## §1 Faults -/

/-- Why a value does not fit. -/
inductive FaultCause where
  /-- A name that is not in the schema; the names that are. -/
  | unknownField (name : String) (known : List String)
  | wrongKind (found : Toml.Value) (expected : String)
  | wrongValue (found : Int64) (expected : String)
  /-- An array with more values than there are fields. -/
  | tooLong (length : Nat)

/-- A value that does not fit, and the keys that lead to it. -/
structure Fault where
  cause : FaultCause
  /-- The keys, the outermost first. -/
  path : List String

/-- A fault at the place itself. -/
def Fault.here (cause : FaultCause) : Fault :=
  ⟨cause, []⟩

/-- A fault found under a key. -/
def Fault.within (key : String) (f : Fault) : Fault :=
  { f with path := key :: f.path }

/-- A name in the quotes that messages put around names. -/
def named (name : String) : String :=
  "`" ++ name ++ "`"

/-- What was found, in words. -/
def describe : Toml.Value → String
  | .string s => "string " ++ Text.quoted s
  | .integer n => "integer " ++ named (toString n.toInt)
  | .float x => "floating point " ++ named (Decimal.pointed x)
  | .boolean b => "boolean " ++ named (if b then "true" else "false")
  | .datetime d => "string " ++ Text.quoted d.text
  | .array _ => "sequence"
  | .table _ => "map"

/-- The names of a schema, in words. -/
def oneOf : List String → String
  | [a, b] => named a ++ " or " ++ named b
  | names => "one of " ++ ", ".intercalate (names.map named)

/-- What does not fit, without the place. -/
def FaultCause.message : FaultCause → String
  | .unknownField name known => "unknown field " ++ named name ++ ", expected " ++ oneOf known
  | .wrongKind found expected => "invalid type: " ++ describe found ++ ", expected " ++ expected
  | .wrongValue found expected =>
    "invalid value: integer " ++ named (toString found.toInt) ++ ", expected " ++ expected
  | .tooLong length => s!"invalid length {length}, expected fewer elements in array"

/-- What does not fit and, unless it is the whole, the place: one line for each. -/
def Fault.located (f : Fault) : String :=
  f.cause.message ++ "\n" ++
    if f.path.isEmpty then "" else "in " ++ named (".".intercalate f.path) ++ "\n"

/-! ## §2 Forms -/

/-- In which form a value is given. -/
inductive Form where
  /-- As a document: entries are looked at in the order in which they were written. -/
  | document
  /-- As a value put together from layers: entries are looked at in the order of their
      names, and no value of an array may be left over. -/
  | layered
deriving Repr, DecidableEq

/-- A value as it is looked at. A date counts as a table with one entry in a document, and
    as its text among layers. -/
def Form.view : Form → Toml.Value → Toml.Value
  | .document, .datetime d => .table [(Toml.dateKey, .string d.text)]
  | .layered, .datetime d => .string d.text
  | .layered, .table es => .table (Entries.sorted es)
  | _, v => v

/-! ## §3 Scalars -/

/-- Yes or no. -/
def Form.boolean (form : Form) (v : Toml.Value) : Except Fault Bool :=
  match form.view v with
  | .boolean b => .ok b
  | found => .error (.here (.wrongKind found "a boolean"))

/-- A floating-point number; a whole number counts as one. -/
def Form.float (form : Form) (v : Toml.Value) : Except Fault Float :=
  match form.view v with
  | .float x => .ok x
  | .integer n => .ok (Float.ofInt n.toInt)
  | found => .error (.here (.wrongKind found "f64"))

/-- A whole number of 64 bits without a sign; `expected` names its kind. -/
def Form.word (expected : String) (form : Form) (v : Toml.Value) : Except Fault UInt64 :=
  match form.view v with
  | .integer n =>
    if 0 ≤ n then .ok n.toUInt64 else .error (.here (.wrongValue n expected))
  | found => .error (.here (.wrongKind found expected))

/-! ## §4 Groups -/

/-- A field of a group: its name, and how a value is entered into it. -/
structure Field (σ : Type) where
  name : String
  /-- The group with a value entered. -/
  enter : Form → Toml.Value → σ → Except Fault σ

/-- A field that a reader of its values fills. -/
def Field.make {σ α : Type} (name : String) (read : Form → Toml.Value → Except Fault α)
    (set : α → σ → σ) : Field σ :=
  ⟨name, fun form v group => (read form v).map (set · group)⟩

/-- A group of fields. -/
structure Schema (σ : Type) where
  name : String
  fields : List (Field σ)
  /-- The group where no field is mentioned. -/
  initial : σ

namespace Schema

variable {σ : Type}

/-- The names of the fields. -/
def names (s : Schema σ) : List String :=
  s.fields.map Field.name

/-- Enters the value of a table's entry. -/
def enterNamed (s : Schema σ) (form : Form) (group : σ) (e : String × Toml.Value) :
    Except Fault σ :=
  match s.fields.find? (·.name == e.1) with
  | some field => (field.enter form e.2 group).mapError (Fault.within e.1)
  | none => .error (.here (.unknownField e.1 s.names))

/-- Enters values in the order of the fields; those left over are not looked at. -/
def enterInOrder (form : Form) : List (Field σ) → List Toml.Value → σ → Except Fault σ
  | field :: fields, v :: vs, group => do
    let group ← field.enter form v group
    enterInOrder form fields vs group
  | _, _, group => .ok group

/-- The group that a value gives. -/
def read (s : Schema σ) (form : Form) (v : Toml.Value) : Except Fault σ :=
  match form.view v with
  | .table es => es.foldlM (s.enterNamed form) s.initial
  | .array vs => do
    let group ← enterInOrder form s.fields vs s.initial
    -- A fault in one of the values goes before their number.
    if form = .layered ∧ s.fields.length < vs.length then
      .error (.here (.tooLong vs.length))
    else .ok group
  | found => .error (.here (.wrongKind found s.name))

end Schema

end Quicklook
