/-!
# Journals

A computation that leaves notes in the order in which they were made. What a pipeline
reports, and which of its collaborators it called, is read off such a journal.

Main statements: notes are kept in order (`entries_bind`), and journals form a lawful monad.
-/

namespace Quicklook

/-- A value and the notes made on the way to it, the earliest first. -/
structure Journal (ω : Type) (α : Type) where
  value : α
  /-- The notes, the earliest first. -/
  entries : List ω
deriving Repr, DecidableEq

namespace Journal

variable {ω ω' α β : Type}

/-- A note and nothing else. -/
def note (entry : ω) : Journal ω Unit :=
  ⟨(), [entry]⟩

instance : Monad (Journal ω) where
  pure a := ⟨a, []⟩
  bind j f := ⟨(f j.value).value, j.entries ++ (f j.value).entries⟩

/-- The same result with every note in another form. -/
def mapEntries (f : ω → ω') (j : Journal ω α) : Journal ω' α :=
  ⟨j.value, j.entries.map f⟩

/-! ## §1 Laws -/

@[simp] theorem value_pure (a : α) : (pure a : Journal ω α).value = a := rfl

@[simp] theorem entries_pure (a : α) : (pure a : Journal ω α).entries = [] := rfl

@[simp] theorem value_bind (j : Journal ω α) (f : α → Journal ω β) :
    (j >>= f).value = (f j.value).value := rfl

/-- The notes of the first part come before those of the second. -/
@[simp] theorem entries_bind (j : Journal ω α) (f : α → Journal ω β) :
    (j >>= f).entries = j.entries ++ (f j.value).entries := rfl

@[simp] theorem value_map (f : α → β) (j : Journal ω α) : (f <$> j).value = f j.value := rfl

@[simp] theorem entries_map (f : α → β) (j : Journal ω α) : (f <$> j).entries = j.entries := by
  show j.entries ++ [] = j.entries
  simp

@[simp] theorem value_note (entry : ω) : (note entry).value = () := rfl

@[simp] theorem entries_note (entry : ω) : (note entry).entries = [entry] := rfl

@[simp] theorem value_mapEntries (f : ω → ω') (j : Journal ω α) :
    (j.mapEntries f).value = j.value := rfl

@[simp] theorem entries_mapEntries (f : ω → ω') (j : Journal ω α) :
    (j.mapEntries f).entries = j.entries.map f := rfl

/-- Two journals with equal results and equal notes are equal. -/
theorem ext {j k : Journal ω α} (hv : j.value = k.value) (he : j.entries = k.entries) :
    j = k := by
  cases j; cases k; simp_all

instance : LawfulMonad (Journal ω) :=
  LawfulMonad.mk' (Journal ω) (fun _ => ext rfl (by simp)) (fun _ _ => ext rfl (by simp))
    (fun _ _ _ => ext rfl (by simp))

end Journal

end Quicklook
