import Mathlib.Data.List.Nodup
import Mathlib.Data.List.Perm.Basic
import Mathlib.Data.String.Basic
import Quicklook.Toml.Value

/-!
# Entries as maps

A table is a map, written as a list of entries: no key occurs twice in it, and what it says does
not depend on the order of its entries.

* `find?_eq_some_iff`: what is found is what is there
* `mem_of_mem_put`: what is there after something was put
* `Ascending.eq_of_mem_iff`: entries in the order of their keys are determined by which there are
* `sorted_eq_of_perm`: so sorting gives that order, wherever the entries stood
-/

namespace Quicklook.Toml.Entries

variable {α : Type}

/-! ## §1 Look-ups -/

theorem mem_keys {es : Entries α} {key : String} {a : α} (h : (key, a) ∈ es) : key ∈ keys es :=
  List.mem_map.2 ⟨(key, a), h, rfl⟩

/-- What is found is there, whether or not the key comes again. -/
theorem mem_of_find? {es : Entries α} {key : String} {a : α} (h : find? es key = some a) :
    (key, a) ∈ es := by
  -- The first entry with the key is the one that is found.
  induction es with
  | nil => cases h
  | cons d es ih =>
    obtain ⟨k, b⟩ := d
    rw [find?] at h
    split at h
    case isTrue heq =>
      obtain rfl := Option.some.inj h
      exact heq ▸ List.mem_cons_self ..
    case isFalse => exact List.mem_cons_of_mem _ (ih h)

/-- Where no key comes twice, what is found is what is there. -/
theorem find?_eq_some_iff {es : Entries α} (h : (keys es).Nodup) {key : String} {a : α} :
    find? es key = some a ↔ (key, a) ∈ es := by
  refine ⟨mem_of_find?, fun hmem => ?_⟩
  obtain ⟨b, hb⟩ := Option.isSome_iff_exists.1 ((find?_isSome_iff es key).2 (mem_keys hmem))
  -- Something is found under the key, and it can be nothing else.
  have heq : (key, a) = (key, b) := List.inj_on_of_nodup_map h hmem (mem_of_find? hb) rfl
  rw [hb, (Prod.mk.inj heq).2]

theorem find?_eq_none_iff {es : Entries α} {key : String} :
    find? es key = none ↔ key ∉ keys es := by
  rw [← find?_isSome_iff, Bool.not_eq_true, Option.isSome_eq_false_iff, Option.isNone_iff_eq_none]

/-- What is put under a new key comes last. -/
theorem put_of_not_mem {es : Entries α} {key : String} (h : key ∉ keys es) (a : α) :
    put es key a = es ++ [(key, a)] := by
  induction es with
  | nil => rfl
  | cons d es ih =>
    obtain ⟨hne, hes⟩ := not_or.1 (mt List.mem_cons.2 h)
    rw [put, if_neg (Ne.symm hne), ih hes, List.cons_append]

/-- After something was put there is that, and otherwise nothing new. -/
theorem mem_of_mem_put {es : Entries α} {key : String} {a : α} {e : String × α}
    (h : e ∈ put es key a) : e = (key, a) ∨ e ∈ es := by
  induction es with
  | nil => exact Or.inl (List.mem_singleton.1 h)
  | cons d es ih =>
    obtain ⟨k, b⟩ := d
    rw [put] at h
    split at h
    case isTrue heq =>
      subst heq
      exact (List.mem_cons.1 h).imp_right (List.mem_cons_of_mem _)
    case isFalse =>
      rcases List.mem_cons.1 h with rfl | hmem
      · exact Or.inr (List.mem_cons_self ..)
      · exact (ih hmem).imp_right (List.mem_cons_of_mem _)

/-! ## §2 The order of the keys -/

/-- The keys of the entries ascend. -/
def Ascending (es : Entries α) : Prop :=
  es.Pairwise fun a b => a.1 < b.1

/-- Sorting changes no entry. -/
theorem mem_sorted {es : Entries α} {e : String × α} : e ∈ sorted es ↔ e ∈ es :=
  (List.mergeSort_perm es _).mem_iff

/-- Distinct keys ascend after sorting. -/
theorem ascending_sorted {es : Entries α} (h : (keys es).Nodup) : (sorted es).Ascending := by
  -- Sorting alone allows equal keys next to each other.
  have hle : (sorted es).Pairwise fun a b => a.1 ≤ b.1 := by
    refine (List.pairwise_mergeSort ?_ ?_ es).imp of_decide_eq_true
    · intro a b c hab hbc
      exact decide_eq_true (String.le_trans (of_decide_eq_true hab) (of_decide_eq_true hbc))
    · intro a b
      simpa using String.le_total a.1 b.1
  -- That keys are distinct does not depend on their order.
  have hne : (sorted es).Pairwise fun a b => a.1 ≠ b.1 :=
    List.pairwise_map.1 (((List.mergeSort_perm es _).map Prod.fst).nodup_iff.2 h)
  refine (hle.and hne).imp fun {a b} hab => ?_
  exact lt_of_le_of_ne hab.1 hab.2

theorem ascending_of_keys {es : Entries α} (h : (keys es).Pairwise (· < ·)) : es.Ascending :=
  List.pairwise_map.1 h

theorem Ascending.nodup {es : Entries α} (h : es.Ascending) : es.Nodup :=
  h.imp fun hlt heq => (heq ▸ hlt).false

theorem Ascending.nodup_keys {es : Entries α} (h : es.Ascending) : (keys es).Nodup :=
  (List.pairwise_map.2 h).imp fun hlt => hlt.ne

/-- Entries in the order of their keys are determined by which there are. -/
theorem Ascending.eq_of_mem_iff {es fs : Entries α} (hes : es.Ascending) (hfs : fs.Ascending)
    (h : ∀ e, e ∈ es ↔ e ∈ fs) : es = fs := by
  refine List.Perm.eq_of_pairwise ?_ hes hfs
    ((List.perm_ext_iff_of_nodup hes.nodup hfs.nodup).2 h)
  -- Two entries can not come in either order.
  intro a b _ _ hab hba
  exact absurd (hab.trans hba) (lt_irrefl _)

/-- Sorting gives the entries in the order of their keys, wherever they stood. -/
theorem sorted_eq_of_perm {es fs : Entries α} (h : es.Perm fs) (hfs : fs.Ascending) :
    sorted es = fs :=
  (ascending_sorted ((h.map Prod.fst).nodup_iff.2 hfs.nodup_keys)).eq_of_mem_iff hfs
    fun _ => mem_sorted.trans h.mem_iff

end Quicklook.Toml.Entries
