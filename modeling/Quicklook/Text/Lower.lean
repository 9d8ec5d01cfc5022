import Quicklook.Text.CaseTable

/-!
# Lower case

The lower-case form of a text. All characters but one are mapped on their own: a capital
sigma at the end of a word becomes the final sigma.

Main statement: on ASCII text lower case is the letter-by-letter mapping (`lower_of_ascii`).
-/

namespace Quicklook.Text

/-! ## §1 Words around a sigma -/

/-- Whether the nearest character that case does not ignore is cased. -/
def meetsCased (s : List Char) : Bool :=
  match s.dropWhile isCaseIgnorable with
  | c :: _ => isCased c
  | [] => false

/-- Whether a sigma ends its word: a cased character comes before it and none after it, with
    the characters that case ignores passed over on both sides. `before` is read away from
    the sigma. -/
def endsWord (before after : List Char) : Bool :=
  meetsCased before && ! meetsCased after

/-! ## §2 The mapping -/

/-- The lower-case form of `s` in a text that begins with `before`, read backwards. -/
def lowerAfter (before : List Char) : List Char → List Char
  | [] => []
  | c :: s =>
    (if c = 'Σ' then [if endsWord before s then 'ς' else 'σ'] else lowerChar c) ++
      lowerAfter (c :: before) s

/-- The lower-case form of a text. -/
def lower (s : List Char) : List Char :=
  lowerAfter [] s

/-- `lower` on strings. -/
def lowered (s : String) : String :=
  String.ofList (lower s.toList)

/-! ## §3 ASCII -/

/-- An ASCII character has the lower-case form that core gives it. -/
theorem lowerChar_of_ascii {c : Char} (h : c.toNat < 128) : lowerChar c = [c.toLower] := by
  -- There are few enough of them to look at each.
  have key : ∀ n : Fin 128, lowerChar (Char.ofNat n) = [(Char.ofNat n).toLower] := by
    decide +kernel
  have := key ⟨c.toNat, h⟩
  simpa [Char.ofNat_toNat] using this

/-- The lower-case form of ASCII text is taken letter by letter. -/
theorem lower_of_ascii {s : List Char} (h : ∀ c ∈ s, c.toNat < 128) :
    lower s = s.map Char.toLower := by
  -- Without a sigma, what comes before a character does not matter.
  suffices ∀ before, lowerAfter before s = s.map Char.toLower from this []
  induction s with
  | nil => intro before; rfl
  | cons c s ih =>
    intro before
    have hc : c.toNat < 128 := h c (by simp)
    have hs : c ≠ 'Σ' := by rintro rfl; revert hc; decide
    simp only [lowerAfter, hs, if_false, lowerChar_of_ascii hc, List.map_cons,
      ih (fun d hd => h d (by simp [hd])), List.singleton_append]

end Quicklook.Text
