import Mathlib.Data.List.DropRight
import Mathlib.Data.List.TakeWhile
import Quicklook.Text.Blank

/-!
# Trimmed text

Trimming drops blanks from the left and from the right. A character that is not blank keeps the two
ends of a text apart, so that each end can be looked at by itself; a text without such a character
is trimmed to nothing.

* `trim_eq_nil_iff`: trimming leaves nothing exactly of blank text
* `head?_trim`, `getLast?_trim`: a trimmed text neither begins nor ends with a blank
* `trim_append`: the blanks around a text are all that trimming takes away
* `trim_append_cons`: the two ends of a text are trimmed apart
* `trim_trim`: trimming again changes nothing
-/

namespace Quicklook.Text

variable {c : Char} {s t blanks : List Char}

/-! ## §1 One end -/

/-- Trimming at the end is dropping from the right. -/
theorem trimEnd_eq_rdropWhile (s : List Char) : trimEnd s = s.rdropWhile isBlank :=
  rfl

/-- A text that starts with something else than a blank is its own `trimStart`. -/
theorem trimStart_cons_of_not (h : isBlank c = false) : trimStart (c :: s) = c :: s := by
  simp [trimStart, h]

/-- Blanks before a text that does not start with one are left out. -/
theorem trimStart_append (hb : ∀ b ∈ blanks, isBlank b = true)
    (hs : ∀ c, s.head? = some c → isBlank c = false) : trimStart (blanks ++ s) = s := by
  rw [trimStart, List.dropWhile_append_of_pos hb]
  cases s with
  | nil => rfl
  | cons c s => exact trimStart_cons_of_not (hs c rfl)

/-- Blanks after a text that does not end with one are left out. -/
theorem trimEnd_append (hb : ∀ b ∈ blanks, isBlank b = true)
    (hs : ∀ c, s.getLast? = some c → isBlank c = false) : trimEnd (s ++ blanks) = s := by
  -- Read from its end, the text starts with the blanks.
  have hrev : trimStart (blanks.reverse ++ s.reverse) = s.reverse :=
    trimStart_append (fun b hb' => hb b (List.mem_reverse.1 hb')) fun c hc =>
      hs c (by rwa [List.head?_reverse] at hc)
  rw [trimEnd, List.reverse_append, ← trimStart, hrev, List.reverse_reverse]

/-- What is left at the start does not begin with a blank. -/
theorem isBlank_of_trimStart_eq_cons (h : trimStart s = c :: t) : isBlank c = false := by
  have hhead := List.head?_dropWhile_not isBlank s
  rw [show s.dropWhile isBlank = c :: t from h] at hhead
  simpa using hhead

/-- Trimming at the end keeps the first character, unless nothing is left. -/
theorem head?_trimEnd (h : isBlank c = false) : (trimEnd (c :: s)).head? = some c := by
  -- The text is not blank throughout, since its first character is not.
  have hne : trimEnd (c :: s) ≠ [] := by
    intro hnil
    have hblank := List.rdropWhile_eq_nil_iff.1 hnil c List.mem_cons_self
    simp [h] at hblank
  rw [List.head?_eq_some_head hne]
  exact congrArg some ((List.rdropWhile_prefix isBlank (c :: s)).head hne)

/-- What is blank before the first character that is not, is left out, and nothing else. -/
theorem trimStart_append_cons (h : isBlank c = false) (s t : List Char) :
    trimStart (s ++ c :: t) = trimStart s ++ c :: t := by
  induction s with
  | nil => exact trimStart_cons_of_not h
  | cons d s ih =>
    by_cases hd : isBlank d
    · simpa [trimStart, hd] using ih
    · simp [trimStart, hd]

/-- What is blank behind the last character that is not, is left out, and nothing else. -/
theorem trimEnd_append_cons (h : isBlank c = false) (s t : List Char) :
    trimEnd (s ++ c :: t) = s ++ c :: trimEnd t := by
  rw [trimEnd, List.reverse_append, List.reverse_cons, List.append_assoc, List.singleton_append,
    ← trimStart, trimStart_append_cons h, List.reverse_append, List.reverse_cons,
    List.reverse_reverse, List.append_assoc, List.singleton_append]
  rfl

/-- Blanks at the end do not matter to trimming there. -/
theorem trimEnd_append_blanks (h : ∀ b ∈ blanks, isBlank b = true) (s : List Char) :
    trimEnd (s ++ blanks) = trimEnd s := by
  rw [trimEnd, List.reverse_append,
    List.dropWhile_append_of_pos fun b hb => h b (List.mem_reverse.1 hb)]
  rfl

/-- Trimming at the end adds nothing. -/
theorem mem_of_mem_trimEnd (h : c ∈ trimEnd s) : c ∈ s :=
  (List.rdropWhile_prefix isBlank s).subset h

/-! ## §2 Both ends -/

/-- The first character that is left is found by trimming at the start. -/
theorem head?_trim_eq (s : List Char) : (trim s).head? = (trimStart s).head? := by
  rw [trim]
  cases hs : trimStart s with
  | nil => rfl
  | cons c t => exact head?_trimEnd (isBlank_of_trimStart_eq_cons hs)

/-- A trimmed text does not begin with a blank. -/
theorem head?_trim (h : (trim s).head? = some c) : isBlank c = false := by
  rw [head?_trim_eq] at h
  obtain ⟨t, hs⟩ := List.head?_eq_some_iff.1 h
  exact isBlank_of_trimStart_eq_cons hs

/-- A trimmed text does not end with a blank. -/
theorem getLast?_trim (h : (trim s).getLast? = some c) : isBlank c = false := by
  simp only [trim, trimEnd, List.getLast?_reverse] at h
  have hhead := List.head?_dropWhile_not isBlank (trimStart s).reverse
  rw [h] at hhead
  simpa using hhead

/-- Only blank text trims to nothing. -/
theorem trim_eq_nil_iff : trim s = [] ↔ ∀ c ∈ s, isBlank c = true := by
  rw [← List.dropWhile_eq_nil_iff, ← trimStart, trim]
  constructor
  · intro h
    cases hs : trimStart s with
    | nil => rfl
    -- What begins with something else than a blank is not dropped from the right.
    | cons d t =>
      rw [hs] at h
      have hhead := head?_trimEnd (s := t) (isBlank_of_trimStart_eq_cons hs)
      rw [h] at hhead
      cases hhead
  · intro h
    rw [h]
    rfl

/-- Blanks around a text without blanks at its ends are left out. -/
theorem trim_append {front s back : List Char} (hfront : ∀ b ∈ front, isBlank b = true)
    (hback : ∀ b ∈ back, isBlank b = true)
    (hhead : ∀ c, s.head? = some c → isBlank c = false)
    (hlast : ∀ c, s.getLast? = some c → isBlank c = false) : trim (front ++ s ++ back) = s := by
  rw [List.append_assoc, trim]
  -- Nothing between the blanks is blank as a whole; otherwise each end is trimmed by itself.
  cases s with
  | nil =>
    rw [List.nil_append, ← trim, trim_eq_nil_iff]
    intro c hc
    exact (List.mem_append.1 hc).elim (hfront c) (hback c)
  | cons c s =>
    have hstart : ∀ d, (c :: s ++ back).head? = some d → isBlank d = false := hhead
    rw [trimStart_append hfront hstart, trimEnd_append hback hlast]

/-- Around a character that is not blank, each side is trimmed at its own end. -/
theorem trim_append_cons (h : isBlank c = false) (s t : List Char) :
    trim (s ++ c :: t) = trimStart s ++ c :: trimEnd t := by
  rw [trim, trimStart_append_cons h, trimEnd_append_cons h]

/-- Blanks at the start do not matter. -/
theorem trim_blanks_append (h : ∀ b ∈ blanks, isBlank b = true) (s : List Char) :
    trim (blanks ++ s) = trim s := by
  rw [trim, trimStart, List.dropWhile_append_of_pos h]
  rfl

/-- Blanks at the end do not matter. -/
theorem trim_append_blanks (h : ∀ b ∈ blanks, isBlank b = true) (s : List Char) :
    trim (s ++ blanks) = trim s := by
  by_cases hs : ∀ c ∈ s, isBlank c = true
  · rw [trim_eq_nil_iff.2 hs, trim_eq_nil_iff]
    exact fun c hc => (List.mem_append.1 hc).elim (hs c) (h c)
  · -- A character that is not blank keeps the two ends apart.
    simp only [not_forall, Bool.not_eq_true] at hs
    obtain ⟨c, hmem, hc⟩ := hs
    obtain ⟨u, v, rfl⟩ := List.append_of_mem hmem
    rw [List.append_assoc, List.cons_append, trim_append_cons hc, trim_append_cons hc,
      trimEnd_append_blanks h]

/-- What is blank at the start does not matter. -/
theorem trim_trimStart (s : List Char) : trim (trimStart s) = trim s := by
  have hblank : ∀ b ∈ s.takeWhile isBlank, isBlank b = true := fun _ => List.mem_takeWhile_imp
  calc trim (trimStart s)
      = trim (s.takeWhile isBlank ++ trimStart s) := (trim_blanks_append hblank _).symm
    _ = trim s := by rw [trimStart, List.takeWhile_append_dropWhile]

/-- What is blank at the end does not matter. -/
theorem trim_trimEnd (s : List Char) : trim (trimEnd s) = trim s := by
  have hblank : ∀ b ∈ s.rtakeWhile isBlank, isBlank b = true := fun _ => List.mem_rtakeWhile_imp
  calc trim (trimEnd s)
      = trim (trimEnd s ++ s.rtakeWhile isBlank) := (trim_append_blanks hblank _).symm
    _ = trim s := by rw [trimEnd_eq_rdropWhile, List.rdropWhile_append_rtakeWhile]

/-- A text is blanks, what is left of it without them, and blanks again. -/
theorem exists_eq_append_trim (s : List Char) :
    ∃ front back, (∀ b ∈ front, isBlank b = true) ∧ (∀ b ∈ back, isBlank b = true) ∧
      s = front ++ trim s ++ back := by
  refine ⟨s.takeWhile isBlank, (trimStart s).rtakeWhile isBlank,
    fun _ => List.mem_takeWhile_imp, fun _ => List.mem_rtakeWhile_imp, ?_⟩
  rw [List.append_assoc, trim, trimEnd_eq_rdropWhile, List.rdropWhile_append_rtakeWhile, trimStart,
    List.takeWhile_append_dropWhile]

/-- Trimming adds nothing. -/
theorem mem_of_mem_trim (h : c ∈ trim s) : c ∈ s :=
  (List.dropWhile_sublist _).subset (mem_of_mem_trimEnd h)

/-- Trimming again changes nothing. -/
theorem trim_trim (s : List Char) : trim (trim s) = trim s := by
  have hends := @trim_append [] (trim s) [] nofun nofun (fun _ => head?_trim) fun _ => getLast?_trim
  rwa [List.nil_append, List.append_nil] at hends

end Quicklook.Text
