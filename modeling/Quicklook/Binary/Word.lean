/-!
# Words

Operations on words that break off where their result would make no sense: a difference below
zero, a product that no word holds, and bounds that are out of order. Beside them the zeros above
the highest bit of a word.

Main statement: a product of words is the exact one or nothing (`product?_eq_some_iff`,
`product?_eq_none_iff`).
-/

namespace Quicklook.Binary

/-- The difference of two words; nothing if it is below zero. -/
def difference? (a b : UInt32) : Option UInt32 :=
  if b ≤ a then some (a - b) else none

/-- The product of two words of 64 bits; nothing if it does not fit into one. -/
def product? (a b : UInt64) : Option UInt64 :=
  if a.toNat * b.toNat < UInt64.size then some (a * b) else none

/-- The nearest word between two bounds; nothing if they are out of order. -/
def clamp? (w low high : UInt32) : Option UInt32 :=
  if low ≤ high then some (max low (min w high)) else none

/-- The number of zeros above the highest one among the bits of a word, 32 if there is no one. -/
def leadingZeros (w : UInt32) : UInt32 :=
  .ofBitVec w.toBitVec.clz

theorem difference?_of_le {a b : UInt32} (h : b ≤ a) : difference? a b = some (a - b) :=
  if_pos h

/-- Whatever word comes out is the exact product. -/
theorem product?_eq_some_iff {a b n : UInt64} :
    product? a b = some n ↔ n.toNat = a.toNat * b.toNat := by
  rw [product?]
  split
  case isTrue h =>
    rw [Option.some.injEq, ← UInt64.toNat_inj, UInt64.toNat_mul, Nat.mod_eq_of_lt h, eq_comm]
  -- No word is as large as a product that does not fit.
  case isFalse h =>
    have hlt := n.toNat_lt
    exact iff_of_false nofun fun heq => h (heq ▸ hlt)

theorem product?_eq_none_iff {a b : UInt64} :
    product? a b = none ↔ UInt64.size ≤ a.toNat * b.toNat := by
  rw [product?]
  split
  case isTrue h => exact iff_of_false nofun (Nat.not_le_of_lt h)
  case isFalse h => exact iff_of_true rfl (Nat.le_of_not_lt h)

theorem clamp?_of_le {low high : UInt32} (h : low ≤ high) (w : UInt32) :
    clamp? w low high = some (max low (min w high)) :=
  if_pos h

theorem leadingZeros_le (w : UInt32) : leadingZeros w ≤ 32 :=
  BitVec.clz_le

theorem left_le_max (a b : UInt32) : a ≤ max a b := by
  change a ≤ if a ≤ b then b else a
  split
  case isTrue h => exact h
  case isFalse h => exact UInt32.le_refl a

theorem right_le_max (a b : UInt32) : b ≤ max a b := by
  change b ≤ if a ≤ b then b else a
  split
  case isTrue h => exact UInt32.le_refl b
  case isFalse h => exact (UInt32.le_total a b).resolve_left h

end Quicklook.Binary
