import Mathlib.Data.Char
import Mathlib.Data.List.Lex
import Mathlib.Data.Nat.Digits.Lemmas
import Quicklook.Proofs.Metadata.Clean

/-!
# Numbers in fixed places

Numbers that are written with a fixed number of digits, zeros in front: what is written reads
back, and texts of one length are ordered as the numbers that stand in their places.

* `decimal_padded`: the digits of a number write it
* `lt_iff_decimal_lt`: the order of digits is that of numbers
* `lt_iff_take_drop`: the order of texts, place by place
-/

namespace Quicklook.Time

open Metadata (IsDigits decimal isDigit_iff)

/-! ## §1 Digits -/

/-- Digits by the library's own class of characters. -/
theorem isDigits_iff {ds : List Char} :
    IsDigits ds ↔ ds ≠ [] ∧ ∀ d ∈ ds, d.isDigit = true := by
  simp only [IsDigits, isDigit_iff]

instance (ds : List Char) : Decidable (IsDigits ds) :=
  decidable_of_iff (ds ≠ [] ∧ ds.all Char.isDigit = true) (by rw [isDigits_iff, List.all_eq_true])

theorem toNat_of_isDigit {c : Char} (h : c.isDigit = true) : 48 ≤ c.toNat ∧ c.toNat ≤ 57 := by
  rw [isDigit_iff] at h
  exact h

theorem decimal_nil : decimal [] = 0 := rfl

/-- The digits in front count for as many powers of ten as there are digits behind them. -/
theorem decimal_append (ds es : List Char) :
    decimal (ds ++ es) = 10 ^ es.length * decimal ds + decimal es := by
  rw [decimal, List.reverse_append, List.map_append, Nat.ofDigits_append, List.length_map,
    List.length_reverse, Nat.add_comm, decimal, decimal]

theorem decimal_cons (d : Char) (ds : List Char) :
    decimal (d :: ds) = 10 ^ ds.length * (d.toNat - 48) + decimal ds :=
  decimal_append [d] ds

/-- As many digits write no number with more places. -/
theorem decimal_lt {ds : List Char} (h : ∀ d ∈ ds, d.isDigit = true) :
    decimal ds < 10 ^ ds.length := by
  have hdigits : ∀ x ∈ ds.reverse.map (fun d => d.toNat - '0'.toNat), x < 10 := by
    intro x hx
    obtain ⟨d, hd, rfl⟩ := List.mem_map.1 hx
    have hd := toNat_of_isDigit (h d (List.mem_reverse.1 hd))
    have hzero : '0'.toNat = 48 := rfl
    omega
  -- The library counts digits from the units up, so the text is turned around.
  have hlt := Nat.ofDigits_lt_base_pow_length (by decide) hdigits
  rwa [List.length_map, List.length_reverse] at hlt

/-! ## §2 Writing a number -/

/-- The last digits of a number, zeros in front. -/
def padded : ℕ → ℕ → List Char
  | 0, _ => []
  | width + 1, n => padded width (n / 10) ++ [Nat.digitChar (n % 10)]

theorem length_padded (width n : ℕ) : (padded width n).length = width := by
  induction width generalizing n with
  | zero => rfl
  | succ width ih => rw [padded, List.length_append, ih, List.length_singleton]

theorem isDigit_of_mem_padded {width n : ℕ} : ∀ d ∈ padded width n, d.isDigit = true := by
  -- The last digit is written by itself, and the others are those of a tenth of the number.
  induction width generalizing n with
  | zero => simp [padded]
  | succ width ih =>
    intro d hd
    rcases List.mem_append.1 hd with hd | hd
    · exact ih d hd
    · obtain rfl := List.mem_singleton.1 hd
      rw [Nat.isDigit_digitChar, decide_eq_true_iff]
      exact Nat.mod_lt n (by decide)

/-- There is at least one digit, if there is a place for it. -/
theorem isDigits_padded {width : ℕ} (hw : 0 < width) (n : ℕ) : IsDigits (padded width n) :=
  isDigits_iff.2 ⟨List.ne_nil_of_length_pos (by rwa [length_padded]), isDigit_of_mem_padded⟩

/-- The digits of a number write it. -/
theorem decimal_padded {width n : ℕ} (h : n < 10 ^ width) : decimal (padded width n) = n := by
  induction width generalizing n with
  | zero =>
    obtain rfl : n = 0 := by simpa using h
    rfl
  | succ width ih =>
    -- A tenth of the number has one place less, and what is left over is the last digit.
    have hfront := ih (n := n / 10) (by rw [pow_succ] at h; omega)
    have hlast := Nat.toNat_digitChar_of_lt_ten (Nat.mod_lt n (by decide : 10 > 0))
    rw [padded, decimal_append, hfront, decimal_cons, decimal_nil, hlast]
    simp only [List.length_singleton, List.length_nil]
    omega

/-! ## §3 Order -/

/-- Of two numbers the front places decide, and the others where those agree. -/
theorem mul_add_lt_mul_add_iff {b m n x y : ℕ} (hx : x < b) (hy : y < b) :
    b * m + x < b * n + y ↔ m < n ∨ (m = n ∧ x < y) := by
  rcases Nat.lt_trichotomy m n with hlt | rfl | hgt
  · have hle : b * (m + 1) ≤ b * n := Nat.mul_le_mul_left b hlt
    rw [Nat.mul_succ] at hle
    exact iff_of_true (by omega) (.inl hlt)
  · omega
  · have hle : b * (n + 1) ≤ b * m := Nat.mul_le_mul_left b hgt
    rw [Nat.mul_succ] at hle
    exact iff_of_false (by omega) (by omega)

/-- Digits of one length are ordered like the numbers that they write. -/
theorem lt_iff_decimal_lt {a b : List Char} (ha : ∀ d ∈ a, d.isDigit = true)
    (hb : ∀ d ∈ b, d.isDigit = true) (hlen : a.length = b.length) :
    a < b ↔ decimal a < decimal b := by
  induction a generalizing b with
  | nil =>
    obtain rfl := List.eq_nil_of_length_eq_zero hlen.symm
    simp
  | cons c a ih =>
    cases b with
    | nil => cases hlen
    | cons d b =>
      have hlen : a.length = b.length := Nat.succ.inj hlen
      obtain ⟨hc, ha⟩ := List.forall_mem_cons.1 ha
      obtain ⟨hd, hb⟩ := List.forall_mem_cons.1 hb
      have hc' := toNat_of_isDigit hc
      have hd' := toNat_of_isDigit hd
      have hlt : c < d ↔ c.toNat - 48 < d.toNat - 48 := by
        change c.toNat < d.toNat ↔ _
        omega
      have heq : c = d ↔ c.toNat - 48 = d.toNat - 48 := by
        rw [← Char.toNat_inj]
        omega
      -- Both orders are decided by the first place, and by the others where it is the same.
      rw [List.cons_lt_cons_iff, ih ha hb hlen, decimal_cons, decimal_cons, hlen,
        mul_add_lt_mul_add_iff (hlen ▸ decimal_lt ha) (decimal_lt hb), hlt, heq]

theorem eq_iff_decimal_eq {a b : List Char} (ha : ∀ d ∈ a, d.isDigit = true)
    (hb : ∀ d ∈ b, d.isDigit = true) (hlen : a.length = b.length) :
    a = b ↔ decimal a = decimal b := by
  have hlt := lt_iff_decimal_lt ha hb hlen
  have hgt := lt_iff_decimal_lt hb ha hlen.symm
  refine ⟨congrArg decimal, fun heq => ?_⟩
  -- Texts that are not equal are in some order, and then the numbers are in the same.
  rcases lt_trichotomy a b with h | h | h
  · exact absurd heq (hlt.1 h).ne
  · exact h
  · exact absurd heq (hgt.1 h).ne'

/-- What stands behind does not matter unless the fronts are equal. -/
theorem append_lt_append_iff {a b x y : List Char} (hlen : a.length = b.length) :
    a ++ x < b ++ y ↔ a < b ∨ (a = b ∧ x < y) := by
  induction a generalizing b with
  | nil =>
    obtain rfl := List.eq_nil_of_length_eq_zero hlen.symm
    simp
  | cons c a ih =>
    cases b with
    | nil => cases hlen
    | cons d b =>
      rw [List.cons_append, List.cons_append, List.cons_lt_cons_iff, List.cons_lt_cons_iff,
        ih (Nat.succ.inj hlen), List.cons.injEq]
      tauto

/-- Of two texts of one length the first places decide, and the rest where these agree. -/
theorem lt_iff_take_drop {s t : List Char} (n : ℕ) (hlen : s.length = t.length) :
    s < t ↔ s.take n < t.take n ∨ (s.take n = t.take n ∧ s.drop n < t.drop n) := by
  have htake : (s.take n).length = (t.take n).length := by
    rw [List.length_take, List.length_take, hlen]
  rw [← append_lt_append_iff htake, List.take_append_drop, List.take_append_drop]

end Quicklook.Time
