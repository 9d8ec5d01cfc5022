import Quicklook.Toml.Datetime

/-!
# Values of settings

What a settings file says, as a tree: scalars, arrays, and tables with values under keys. A
table keeps its entries in the order in which they were written.

Main statements: an entry that is put is found under its key and nowhere else
(`find?_put`), putting keeps keys distinct (`nodup_keys_put`), and putting back what is
there changes nothing (`put_self`).
-/

namespace Quicklook.Toml

/-! ## §1 Entries -/

/-- Entries of a table, in the order in which they were written. -/
abbrev Entries (α : Type) := List (String × α)

namespace Entries

variable {α : Type}

/-- The keys, in order. -/
def keys (es : Entries α) : List String :=
  es.map Prod.fst

/-- The value under a key. -/
def find? : Entries α → String → Option α
  | [], _ => none
  | (k, a) :: es, key => if k = key then some a else find? es key

/-- The entries with a value put under a key: in the place of the one that was there, or at
    the end. -/
def put : Entries α → String → α → Entries α
  | [], key, a => [(key, a)]
  | (k, b) :: es, key, a => if k = key then (k, a) :: es else (k, b) :: put es key a

/-- The entries without a key. -/
def erase (es : Entries α) (key : String) : Entries α :=
  es.filter (·.1 != key)

/-- The entries in the order of their keys. -/
def sorted (es : Entries α) : Entries α :=
  es.mergeSort fun a b => decide (a.1 ≤ b.1)

/-- What was put is found under its key, and no other look-up changes. -/
theorem find?_put (es : Entries α) (key : String) (a : α) (other : String) :
    find? (put es key a) other = if key = other then some a else find? es other := by
  induction es with
  | nil => simp [put, find?]
  | cons e es ih =>
    obtain ⟨k, b⟩ := e
    by_cases hk : k = key
    -- The first entry is the one that is replaced.
    · subst hk
      by_cases ho : k = other <;> simp [put, find?, ho]
    · by_cases ho : k = other
      · subst ho
        simp [put, find?, hk, Ne.symm hk]
      · simp [put, find?, hk, ho, ih]

/-- A key is found exactly if it is one of the keys. -/
theorem find?_isSome_iff (es : Entries α) (key : String) :
    (find? es key).isSome = true ↔ key ∈ keys es := by
  induction es with
  | nil => simp [find?, keys]
  | cons e es ih =>
    obtain ⟨k, b⟩ := e
    by_cases hk : k = key
    · simp [find?, keys, hk]
    · simpa [find?, keys, hk, Ne.symm hk] using ih

/-- The keys after a value has been put: those that were there, and the new one. -/
theorem keys_put (es : Entries α) (key : String) (a : α) :
    keys (put es key a) = if key ∈ keys es then keys es else keys es ++ [key] := by
  induction es with
  | nil => simp [put, keys]
  | cons e es ih =>
    obtain ⟨k, b⟩ := e
    by_cases hk : k = key
    · simp [put, keys, hk]
    · simp only [put, hk, if_false, keys, List.map_cons, List.mem_cons, Ne.symm hk,
        false_or] at ih ⊢
      rw [ih]
      by_cases hm : key ∈ es.map Prod.fst <;> simp [hm]

/-- Putting keeps keys distinct. -/
theorem nodup_keys_put {es : Entries α} (h : (keys es).Nodup) (key : String) (a : α) :
    (keys (put es key a)).Nodup := by
  rw [keys_put]
  split
  -- The key is there: the keys stay as they are.
  · exact h
  -- The key is new, and comes last.
  · rename_i hk
    refine List.nodup_append.2 ⟨h, by simp, ?_⟩
    rintro x hx y hy rfl
    exact hk (by simpa [List.mem_singleton.1 hy] using hx)

/-- Putting back what is there changes nothing. -/
theorem put_self {es : Entries α} {key : String} {a : α} (h : find? es key = some a) :
    put es key a = es := by
  induction es with
  | nil => simp [find?] at h
  | cons e es ih =>
    obtain ⟨k, b⟩ := e
    by_cases hk : k = key
    · simp_all [find?, put]
    · simp only [find?, hk, if_false] at h
      simp [put, hk, ih h]

end Entries

/-! ## §2 Values -/

/-- What a settings file says. -/
inductive Value where
  | string (s : String)
  | integer (n : Int64)
  | float (x : Float)
  | boolean (b : Bool)
  | datetime (d : Datetime)
  | array (vs : List Value)
  | table (es : List (String × Value))

/-! ## §3 Layers -/

mutual

/-- `upper` laid upon `base`. Where both are tables they are merged key by key; anywhere else
    only `upper` is left. -/
def Value.merge (base : Value) : Value → Value
  | .table upper =>
    match base with
    | .table es => .table (mergeEntries es upper)
    | _ => .table upper
  | upper => upper

/-- Entries laid upon entries: under a key of both the values are merged. -/
def mergeEntries (es : List (String × Value)) : List (String × Value) → List (String × Value)
  | [] => es
  | (key, upper) :: rest =>
    -- A key of both keeps its place in `es`; a new one comes at the end.
    let merged := match Entries.find? es key with
      | some base => base.merge upper
      | none => upper
    mergeEntries (Entries.put es key merged) rest

end

end Quicklook.Toml
