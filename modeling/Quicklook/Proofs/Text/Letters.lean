import Mathlib
import Quicklook.Text.Blank

/-!
# Letters in either case

Where this library compares texts without regard to case, it means the letters of ASCII and no
others. Two texts are the same in this sense if they agree letter by letter.

* `sameLetter_iff`, `sameLetters_iff`: lower case is a normal form for it
* `SameLetter.isAlphanum_eq`: the class of letters and digits does not tell the cases apart
-/

namespace Quicklook.Text

variable {c d : Char} {s t : List Char}

/-- The second character is the first one, its small letter or its capital. -/
def SameLetter (c d : Char) : Prop :=
  d = c ∨ d = c.toLower ∨ d = c.toUpper

/-- The texts are equal but for the case of ASCII letters. -/
def SameLetters (s t : List Char) : Prop :=
  List.Forall₂ SameLetter s t

/-- Two characters are the same letter if their small letters are equal. -/
theorem sameLetter_iff : SameLetter c d ↔ c.toLower = d.toLower := by
  constructor
  · rintro (rfl | rfl | rfl)
    · rfl
    · exact (Char.toLower_toLower_eq_toLower c).symm
    · exact (Char.toLower_toUpper_eq_toLower c).symm
  · intro h
    -- The second one is either the capital of the first, or small and then equal to its small
    -- letter.
    by_cases hd : d.isUpper = true
    · have hupper := congrArg Char.toUpper h
      rw [Char.toUpper_toLower_eq_toUpper, Char.toUpper_toLower_eq_toUpper,
        Char.toUpper_eq_of_not_isLower (Char.not_isLower_of_isUpper hd)] at hupper
      exact .inr (.inr hupper.symm)
    · rw [Char.toLower_eq_of_not_isUpper hd] at h
      exact .inr (.inl h.symm)

/-- Lower case decides whether texts have the same letters. -/
theorem sameLetters_iff : SameLetters s t ↔ s.map Char.toLower = t.map Char.toLower := by
  rw [← List.forall₂_eq_eq_eq, List.forall₂_map_left_iff, List.forall₂_map_right_iff]
  exact ⟨fun h => h.imp fun _ _ => sameLetter_iff.1, fun h => h.imp fun _ _ => sameLetter_iff.2⟩

/-! ## Classes -/

/-- Only letters have another case. -/
theorem toLower_eq_iff (hd : d.isAlpha = false) : c.toLower = d ↔ c = d := by
  constructor
  · intro h
    -- What lower case makes of a letter is a letter, so the character was none and did not change.
    have hc : c.isAlpha = false := by rw [← Char.isAlpha_toLower_eq_isAlpha, h, hd]
    have hupper : ¬ c.isUpper = true := fun hu => by simp [Char.isAlpha, hu] at hc
    rwa [Char.toLower_eq_of_not_isUpper hupper] at h
  · rintro rfl
    exact Char.toLower_eq_of_not_isUpper fun hu => by simp [Char.isAlpha, hu] at hd

theorem isAlphanum_toLower (c : Char) : c.toLower.isAlphanum = c.isAlphanum := by
  -- Lower case changes capitals only, and what it makes of them are letters.
  by_cases h : c.isUpper = true
  · have halpha : c.isAlpha = true := by rw [Char.isAlpha, h, Bool.true_or]
    rw [Char.isAlphanum, Char.isAlphanum, Char.isAlpha_toLower_eq_isAlpha, halpha, Bool.true_or,
      Bool.true_or]
  · rw [Char.toLower_eq_of_not_isUpper h]

/-- The class of letters and digits does not tell the cases apart. -/
theorem SameLetter.isAlphanum_eq (h : SameLetter c d) : c.isAlphanum = d.isAlphanum := by
  rw [← isAlphanum_toLower c, sameLetter_iff.1 h, isAlphanum_toLower]

/-- The class as three ranges of code points: digits, capitals and small letters. -/
theorem toNat_of_isAlphanum (h : c.isAlphanum = true) :
    48 ≤ c.toNat ∧ c.toNat ≤ 57 ∨ 65 ≤ c.toNat ∧ c.toNat ≤ 90 ∨ 97 ≤ c.toNat ∧ c.toNat ≤ 122 := by
  have hbounds : '0'.toNat = 48 ∧ '9'.toNat = 57 ∧ 'A'.toNat = 65 ∧ 'Z'.toNat = 90 ∧
    'a'.toNat = 97 ∧ 'z'.toNat = 122 := ⟨rfl, rfl, rfl, rfl, rfl, rfl⟩
  delta Char.isAlphanum Char.isAlpha Char.isUpper Char.isLower Char.isDigit at h
  simp only [Bool.or_eq_true, Bool.and_eq_true, decide_eq_true_eq, ge_iff_le,
    UInt32.le_iff_toNat_le, Char.toNat_val] at h
  omega

/-- No letter or digit is blank, since the ranges of both classes are apart. -/
theorem isBlank_of_isAlphanum (h : c.isAlphanum = true) : isBlank c = false := by
  have hrange := toNat_of_isAlphanum h
  simp only [isBlank, Bool.or_eq_false_iff, Bool.and_eq_false_iff, decide_eq_false_iff_not,
    beq_eq_false_iff_ne]
  omega

end Quicklook.Text
