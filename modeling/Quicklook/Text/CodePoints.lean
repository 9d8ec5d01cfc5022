/-!
# Sets of code points

A set of code points is written as the ascending list of its edges: the code points at
which membership changes, the first of them being the first member. The tables of Unicode
properties in this library are written so.
-/

namespace Quicklook.Text

/-- Whether `n` lies in the set with the given edges, `inside` being the membership of all
    code points below the first edge. -/
def betweenEdges (inside : Bool) (n : Nat) : List Nat → Bool
  | [] => inside
  | edge :: edges => if n < edge then inside else betweenEdges (!inside) n edges

/-- Whether a character lies in the set with the given edges. -/
def inEdges (edges : List Nat) (c : Char) : Bool :=
  betweenEdges false c.toNat edges

/-- Nothing lies below the first edge. -/
theorem inEdges_of_lt {edge : Nat} {edges : List Nat} {c : Char} (h : c.toNat < edge) :
    inEdges (edge :: edges) c = false := by
  simp [inEdges, betweenEdges, h]

end Quicklook.Text
