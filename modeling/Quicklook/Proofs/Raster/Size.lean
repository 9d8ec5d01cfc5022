import Mathlib.Algebra.Group.Nat.Defs
import Quicklook.Raster.Basic

/-!
# Sizes of rasters

A raster should have `width * height * components` bytes, and every raster has. The product is
taken in 64-bit words, though, and three factors of 32, 32 and 8 bits may exceed one word. Then the
work breaks off, where an error should say that no buffer is as large as that.

* `length_pixels`, `exactCount_lt`: the size of every raster there is
* `make_exact`: on which inputs a raster is made, and on which the work breaks off
* `no_answer_for_large_raster`: `2 ^ 62` pixels with four components
-/

namespace Quicklook.Raster

/-- What a raster should be made of. -/
def Sized (width height : UInt32) (components : UInt8) (pixels : Bytes) : Prop :=
  0 < width ∧ 0 < height ∧ (components = 3 ∨ components = 4) ∧
    pixels.length = exactCount width height components

/-- Dimensions and components are those of a raster, but its exact size does not fit into a word. -/
def TooLarge (width height : UInt32) (components : UInt8) : Prop :=
  0 < width ∧ 0 < height ∧ (components = 3 ∨ components = 4) ∧
    2 ^ 64 ≤ exactCount width height components

variable {width height : UInt32} {components : UInt8} {pixels : Bytes}

/-- Edges are positive if they are not zero. -/
theorem pos_edges_iff : (0 < width ∧ 0 < height) ↔ (width ≠ 0 ∧ height ≠ 0) :=
  and_congr UInt32.pos_iff_ne_zero UInt32.pos_iff_ne_zero

/-- A raster is made of the buffers that have the exact size. A buffer in memory has fewer than
    `2 ^ 64` bytes, and so have these. -/
theorem exists_make?_eq_ok_iff (hlen : pixels.length < 2 ^ 64) :
    (∃ r, make? width height components pixels = some (.ok r)) ↔
      Sized width height components pixels := by
  rw [Sized, ← and_assoc, pos_edges_iff]
  constructor
  · rintro ⟨r, hr⟩
    obtain ⟨hd, hc, hlength, -⟩ := make?_eq_ok_iff.1 hr
    exact ⟨hd, hc, hlength⟩
  · rintro ⟨hd, hc, hlength⟩
    -- What has the exact size has fewer bytes than a word can count, so the product is taken.
    have hfilled := map_byteCount?_iff.2 ⟨hlength, hlength ▸ hlen⟩
    exact ⟨_, make?_of_filled hd hc hfilled⟩

/-- The work breaks off for what is too large, and the buffer is not looked at. -/
theorem make?_eq_none_iff_tooLarge :
    make? width height components pixels = none ↔ TooLarge width height components := by
  rw [make?_eq_none_iff, TooLarge, ← pos_edges_iff, and_assoc]
  rfl

/-- **Which rasters are made.** Every raster there is has the exact size, which fits into a word.
    One is made exactly of sized buffers, and holds what it was made of. Any other input has an
    error for an answer, except where dimensions and components are those of a raster and the exact
    size is no word: there the work breaks off, whatever the buffer is, and there is no answer. -/
theorem make_exact (hlen : pixels.length < 2 ^ 64) :
    (∀ r : Raster, r.pixels.length = exactCount r.width r.height r.components ∧
      exactCount r.width r.height r.components < 2 ^ 64) ∧
    ((∃ r, make? width height components pixels = some (.ok r)) ↔
      Sized width height components pixels) ∧
    (∀ r, make? width height components pixels = some (.ok r) →
      r.width = width ∧ r.height = height ∧ r.components = components ∧ r.pixels = pixels) ∧
    ((∃ e, make? width height components pixels = some (.error e)) ↔
      ¬ Sized width height components pixels ∧ ¬ TooLarge width height components) ∧
    (make? width height components pixels = none ↔ TooLarge width height components) := by
  have hok : (∃ r, make? width height components pixels = some (.ok r)) ↔
      Sized width height components pixels := exists_make?_eq_ok_iff hlen
  have hnone : make? width height components pixels = none ↔ TooLarge width height components :=
    make?_eq_none_iff_tooLarge
  refine ⟨fun r => ⟨r.length_pixels, r.exactCount_lt⟩, hok, fun r hr => ?_, ?_, hnone⟩
  · obtain ⟨-, -, -, -, hfields⟩ := make?_eq_ok_iff.1 hr
    exact hfields
  -- An error is the only answer that is left.
  · rw [← hok, ← hnone]
    rcases make? width height components pixels with _ | e | r
    · exact iff_of_false nofun fun h => h.2 rfl
    · exact iff_of_true ⟨e, rfl⟩ ⟨nofun, nofun⟩
    · exact iff_of_false nofun fun h => h.1 ⟨r, rfl⟩

/-- `2 ^ 62` pixels with four components have `2 ^ 64` bytes, and even without a single byte there
    is no answer; with three components there is an error. -/
theorem no_answer_for_large_raster :
    ([] : Bytes).length < 2 ^ 64 ∧ TooLarge 2147483648 2147483648 4 ∧
      make? 2147483648 2147483648 4 [] = none ∧
      ∃ e, make? 2147483648 2147483648 3 [] = some (.error e) := by
  have hlen : ([] : Bytes).length < 2 ^ 64 := by decide
  have hlarge : TooLarge 2147483648 2147483648 4 := ⟨by decide, by decide, .inr rfl, by decide⟩
  have hsmall : ¬ TooLarge 2147483648 2147483648 3 := fun h => absurd h.2.2.2 (by decide)
  have hunsized : ¬ Sized 2147483648 2147483648 3 [] := fun h => absurd h.2.2.2 (by decide)
  obtain ⟨-, -, -, -, hfour⟩ := @make_exact 2147483648 2147483648 4 [] hlen
  obtain ⟨-, -, -, hthree, -⟩ := @make_exact 2147483648 2147483648 3 [] hlen
  exact ⟨hlen, hlarge, hfour.2 hlarge, hthree.2 ⟨hunsized, hsmall⟩⟩

/-- It is not true that every input has an answer. -/
theorem not_forall_make_answers :
    ¬ ∀ (width height : UInt32) (components : UInt8) (pixels : Bytes), pixels.length < 2 ^ 64 →
      make? width height components pixels ≠ none ∧
        ((∃ r, make? width height components pixels = some (.ok r)) ↔
          0 < width ∧ 0 < height ∧ (components = 3 ∨ components = 4) ∧
            pixels.length = width.toNat * height.toNat * components.toNat) := by
  intro h
  have hlarge : TooLarge 2147483648 2147483648 4 := ⟨by decide, by decide, .inr rfl, by decide⟩
  exact (h 2147483648 2147483648 4 [] (by decide)).1 (make?_eq_none_iff_tooLarge.2 hlarge)

end Quicklook.Raster
