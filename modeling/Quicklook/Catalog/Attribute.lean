import Quicklook.Bytes
import Quicklook.Time.Civil

/-!
# Attributes

Named values of a catalog record. An attribute has one value or several, in the order in
which they were added; one without values cannot be made.
-/

namespace Quicklook

/-- One value. -/
inductive Value where
  | text (s : String)
  | integer (n : Int)
  | date (t : Time.Timestamp)
  | binary (b : Bytes)
deriving Repr, DecidableEq

namespace Value

/-- The text of a text value. -/
def text? : Value → Option String
  | .text s => some s
  | _ => none

/-- The bytes of a binary value. -/
def binary? : Value → Option Bytes
  | .binary b => some b
  | _ => none

end Value

/-- A name and its values. -/
structure Attribute where
  name : String
  /-- The values, in the order in which they were added. -/
  values : List Value
  nonempty : values ≠ []
deriving Repr, DecidableEq

namespace Attribute

/-- An attribute with one value. -/
def single (name : String) (v : Value) : Attribute :=
  ⟨name, [v], List.cons_ne_nil v []⟩

/-- The attribute with one more value at the end. -/
def push (a : Attribute) (v : Value) : Attribute :=
  ⟨a.name, a.values ++ [v], List.append_ne_nil_of_left_ne_nil a.nonempty [v]⟩

/-- The first value. -/
def first? (a : Attribute) : Option Value :=
  a.values.head?

@[simp] theorem name_single (name : String) (v : Value) : (single name v).name = name := rfl

@[simp] theorem values_single (name : String) (v : Value) : (single name v).values = [v] := rfl

@[simp] theorem name_push (a : Attribute) (v : Value) : (a.push v).name = a.name := rfl

@[simp] theorem values_push (a : Attribute) (v : Value) :
    (a.push v).values = a.values ++ [v] := rfl

end Attribute

end Quicklook
