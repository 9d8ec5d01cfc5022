/-!
# Cutting text into pieces

The cuts that the readers of this library share: at the first character of a class, at
every occurrence of a separator, and into lines.

Main statements: a cut loses nothing but its separator (`eq_append_of_cutAt`), and it is made
at the first place (`not_mem_of_cutAt`).
-/

namespace Quicklook.Text

/-! ## §1 The first cut -/

/-- The text before and after the first character of the class `p`; nothing if there is
    no such character. The character itself is in neither part. -/
def cutAt (p : Char → Bool) : List Char → Option (List Char × List Char)
  | [] => none
  | c :: s => if p c then some ([], s) else (cutAt p s).map fun (a, b) => (c :: a, b)

/-- The text before the first character of the class, or all of it. -/
def before (p : Char → Bool) (s : List Char) : List Char :=
  s.takeWhile (! p ·)

/-- A text without a character of the class is all before it. -/
theorem before_eq_self {p : Char → Bool} {s : List Char} (h : ∀ c ∈ s, p c = false) :
    before p s = s := by
  have hall : ∀ c ∈ s, (! p c) = true := fun c hc => by rw [h c hc, Bool.not_false]
  calc before p s
      = (s ++ []).takeWhile (! p ·) := by rw [List.append_nil, before]
    _ = s := by rw [List.takeWhile_append_of_pos hall, List.takeWhile_nil, List.append_nil]

/-- What comes before the first character of the class. -/
theorem before_append_cons {p : Char → Bool} {a b : List Char} {c : Char}
    (ha : ∀ d ∈ a, p d = false) (hc : p c = true) : before p (a ++ c :: b) = a := by
  have hall : ∀ d ∈ a, (! p d) = true := fun d hd => by rw [ha d hd, Bool.not_false]
  rw [before, List.takeWhile_append_of_pos hall, List.takeWhile_cons_of_neg (by simp [hc]),
    List.append_nil]

/-- Either all of a text comes before the class, or one of its characters follows. -/
theorem before_eq_self_or (p : Char → Bool) (s : List Char) :
    s = before p s ∨ ∃ c t, p c = true ∧ s = before p s ++ c :: t := by
  have hsplit : before p s ++ s.dropWhile (! p ·) = s := List.takeWhile_append_dropWhile
  cases hrest : s.dropWhile (! p ·) with
  | nil =>
    rw [hrest, List.append_nil] at hsplit
    exact .inl hsplit.symm
  | cons c t =>
    have hc := List.head?_dropWhile_not (! p ·) s
    rw [hrest] at hsplit hc
    exact .inr ⟨c, t, by simpa using hc, hsplit.symm⟩

/-- The two parts of a cut and the character between them make up the text. -/
theorem eq_append_of_cutAt {p : Char → Bool} {s a b : List Char}
    (h : cutAt p s = some (a, b)) : ∃ c, p c = true ∧ s = a ++ c :: b := by
  induction s generalizing a with
  | nil => simp [cutAt] at h
  | cons d s ih =>
    by_cases hd : p d
    · simp only [cutAt, hd, if_true, Option.some.injEq, Prod.mk.injEq] at h
      exact ⟨d, hd, by simp [h.1.symm, h.2]⟩
    · simp only [cutAt, hd] at h
      obtain ⟨⟨u, v⟩, huv, he⟩ := Option.map_eq_some_iff.1 h
      simp only [Prod.mk.injEq] at he
      obtain ⟨rfl, rfl⟩ := he
      obtain ⟨c, hc, rfl⟩ := ih huv
      exact ⟨c, hc, rfl⟩

/-- No character before the cut is of the class. -/
theorem not_mem_of_cutAt {p : Char → Bool} {s a b : List Char}
    (h : cutAt p s = some (a, b)) : ∀ c ∈ a, p c = false := by
  induction s generalizing a with
  | nil => simp [cutAt] at h
  | cons d s ih =>
    by_cases hd : p d
    · simp only [cutAt, hd, if_true, Option.some.injEq, Prod.mk.injEq] at h
      simp [h.1.symm]
    · simp only [cutAt, hd] at h
      obtain ⟨⟨u, v⟩, huv, he⟩ := Option.map_eq_some_iff.1 h
      simp only [Prod.mk.injEq] at he
      obtain ⟨rfl, rfl⟩ := he
      intro c hc
      rcases List.mem_cons.1 hc with rfl | hc
      · simpa using hd
      · exact ih huv c hc

/-- A text is cut at the first character of the class. -/
theorem cutAt_append_cons {p : Char → Bool} {a b : List Char} {c : Char}
    (ha : ∀ d ∈ a, p d = false) (hc : p c = true) : cutAt p (a ++ c :: b) = some (a, b) := by
  induction a with
  | nil => simp [cutAt, hc]
  | cons d a ih =>
    have hd : p d = false := ha d (by simp)
    simp [cutAt, hd, ih fun e he => ha e (by simp [he])]

/-- There is nothing to cut exactly when no character is of the class. -/
theorem cutAt_eq_none_iff {p : Char → Bool} {s : List Char} :
    cutAt p s = none ↔ ∀ c ∈ s, p c = false := by
  induction s with
  | nil => simp [cutAt]
  | cons d s ih => by_cases hd : p d <;> simp_all [cutAt]

/-! ## §2 Every cut -/

/-- The pieces of a text between the occurrences of `sep`; one piece more than there are
    occurrences. -/
def pieces (sep : Char) : List Char → List (List Char)
  | [] => [[]]
  | c :: s =>
    match pieces sep s with
    | [] => [[c]]
    | t :: ts => if c = sep then [] :: t :: ts else (c :: t) :: ts

/-- There is always a first piece. -/
theorem pieces_ne_nil (sep : Char) (s : List Char) : pieces sep s ≠ [] := by
  cases s with
  | nil => simp [pieces]
  | cons c s => simp only [pieces]; split <;> (try split) <;> simp

/-! ## §3 Lines -/

/-- A line without the carriage return that may stand before its line feed. -/
def dropReturn (line : List Char) : List Char :=
  if line.getLast? = some '\r' then line.dropLast else line

/-- The lines of a text, without their ends. A line ends with a line feed or with a
    carriage return and a line feed; text after the last line feed is a line of its own,
    as it stands, unless there is none. -/
def lines (s : List Char) : List (List Char) :=
  let ps := pieces '\n' s
  let closed := ps.dropLast.map dropReturn
  match ps.getLast? with
  | some [] | none => closed
  | some rest => closed ++ [rest]

end Quicklook.Text
