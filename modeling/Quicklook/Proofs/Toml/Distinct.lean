import Mathlib.Data.List.Nodup
import Quicklook.Proofs.Toml.Entries
import Quicklook.Toml.Layer

/-!
# Keys are distinct

A table is a map: no key occurs twice in it, nor in any table within. Values are lists of
entries here, so this is a property of those that can be written, and it is kept by every
statement of a settings file: a key is entered where it is free, or put in the place of what was
there.

* `Section.keeps_change`: changing a table inside of a table
* `yields_readValue`: every value that is read has distinct keys
* `distinct_of_ofLayerText?`: and so has every settings file
-/

namespace Quicklook.Toml

open Entries (keys)

/-! ## §1 Values and tables under construction -/

mutual

/-- No key occurs twice, in the value itself and in all values within. -/
def Value.Distinct : Value → Prop
  | .table es => (keys es).Nodup ∧ entriesDistinct es
  | .array vs => valuesDistinct vs
  | _ => True

def valuesDistinct : List Value → Prop
  | [] => True
  | v :: vs => v.Distinct ∧ valuesDistinct vs

def entriesDistinct : List (String × Value) → Prop
  | [] => True
  | (_, v) :: es => v.Distinct ∧ entriesDistinct es

end

mutual

/-- The same for what is under construction. -/
def Node.Distinct : Node → Prop
  | .value v => v.Distinct
  | .table t => t.Distinct
  | .elements ts => sectionsDistinct ts

def Section.Distinct : Section → Prop
  | .mk _ es => (keys es).Nodup ∧ nodesDistinct es

def sectionsDistinct : List Section → Prop
  | [] => True
  | t :: ts => t.Distinct ∧ sectionsDistinct ts

def nodesDistinct : List (String × Node) → Prop
  | [] => True
  | (_, n) :: es => n.Distinct ∧ nodesDistinct es

end

theorem valuesDistinct_iff {vs : List Value} : valuesDistinct vs ↔ ∀ v ∈ vs, v.Distinct := by
  induction vs with
  | nil => simp [valuesDistinct]
  | cons v vs ih => simp [valuesDistinct, ih]

/-- Nothing is asked of the entries of a table but of their values. -/
theorem entriesDistinct_iff {es : Entries Value} :
    entriesDistinct es ↔ ∀ e ∈ es, e.2.Distinct := by
  induction es with
  | nil => simp [entriesDistinct]
  | cons e es ih => simp [entriesDistinct, ih]

theorem sectionsDistinct_iff {ts : List Section} :
    sectionsDistinct ts ↔ ∀ t ∈ ts, t.Distinct := by
  induction ts with
  | nil => simp [sectionsDistinct]
  | cons t ts ih => simp [sectionsDistinct, ih]

theorem nodesDistinct_iff {es : Entries Node} :
    nodesDistinct es ↔ ∀ e ∈ es, e.2.Distinct := by
  induction es with
  | nil => simp [nodesDistinct]
  | cons e es ih => simp [nodesDistinct, ih]

/-- Finishing a table changes no key. -/
theorem keys_nodeValues (es : Entries Node) : keys (nodeValues es) = keys es := by
  induction es with
  | nil => rfl
  | cons e es ih =>
    obtain ⟨key, n⟩ := e
    exact congrArg (key :: ·) ih

mutual

/-- What is finished has distinct keys if it had them under construction. -/
theorem Node.distinct_toValue : (n : Node) → n.Distinct → n.toValue.Distinct
  | .value _, h => h
  | .table t, h => t.distinct_toValue h
  | .elements ts, h => distinct_sectionValues ts h

/-- A finished table has the keys of the one under construction. -/
theorem Section.distinct_toValue : (t : Section) → t.Distinct → t.toValue.Distinct
  | .mk _ es, ⟨hkeys, hes⟩ => ⟨keys_nodeValues es ▸ hkeys, distinct_nodeValues es hes⟩

theorem distinct_sectionValues : (ts : List Section) → sectionsDistinct ts →
    valuesDistinct (sectionValues ts)
  | [], _ => trivial
  | t :: ts, ⟨ht, hts⟩ => ⟨t.distinct_toValue ht, distinct_sectionValues ts hts⟩

theorem distinct_nodeValues : (es : List (String × Node)) → nodesDistinct es →
    entriesDistinct (nodeValues es)
  | [], _ => trivial
  | (_, n) :: es, ⟨hn, hes⟩ => ⟨n.distinct_toValue hn, distinct_nodeValues es hes⟩

end

/-! ## §2 Changes of a table -/

namespace Section

variable {t t' : Section} {key : String} {n : Node}

/-- Distinct keys here, and in whatever is entered under each of them. -/
theorem distinct_iff : t.Distinct ↔ (keys t.entries).Nodup ∧ ∀ e ∈ t.entries, e.2.Distinct := by
  obtain ⟨o, es⟩ := t
  rw [Section.Distinct, nodesDistinct_iff, entries]

theorem distinct_empty (o : Origin) : (empty o).Distinct :=
  ⟨List.nodup_nil, trivial⟩

theorem distinct_find? (ht : t.Distinct) (h : t.find? key = some n) : n.Distinct :=
  (distinct_iff.1 ht).2 _ (Entries.mem_of_find? h)

/-- Entering under a key that is there already replaces the entry, so that no key comes twice. -/
theorem distinct_put (ht : t.Distinct) (hn : n.Distinct) : (t.put key n).Distinct := by
  obtain ⟨hkeys, hes⟩ := distinct_iff.1 ht
  refine distinct_iff.2 ⟨Entries.nodup_keys_put hkeys key n, fun e he => ?_⟩
  rcases Entries.mem_of_mem_put he with rfl | hmem
  · exact hn
  · exact hes e hmem

theorem distinct_putLast (ht : t.Distinct) (hn : n.Distinct) : (t.putLast key n).Distinct := by
  obtain ⟨hkeys, hes⟩ := distinct_iff.1 ht
  refine distinct_iff.2 ⟨?_, fun e he => ?_⟩
  · -- The key was taken out before it is put behind the others.
    have herase : (keys (Entries.erase t.entries key)).Nodup :=
      hkeys.sublist (List.filter_sublist.map Prod.fst)
    have hnot : key ∉ keys (Entries.erase t.entries key) := by
      simp [keys, Entries.erase]
    change (keys (Entries.erase t.entries key ++ [(key, n)])).Nodup
    rw [keys, List.map_append]
    exact List.nodup_append.2 ⟨herase, List.nodup_singleton _, by
      rintro a ha b hb rfl
      obtain rfl := List.mem_singleton.1 hb
      exact hnot ha⟩
  -- An entry is one of those that were not taken out, or the new one.
  · rcases List.mem_append.1 he with hmem | hlast
    · exact hes e (List.mem_of_mem_filter hmem)
    · rw [List.mem_singleton.1 hlast]
      exact hn

/-- A function on tables that keeps keys distinct. -/
def Keeps (f : Section → Option Section) : Prop :=
  ∀ t t', t.Distinct → f t = some t' → t'.Distinct

/-- A change somewhere within a table keeps keys distinct if it does so at its own place. Tables
    that have to be made on the way are empty, and those that are there keep their other entries. -/
theorem keeps_change {f : Section → Option Section} (hf : Keeps f) (made : Origin)
    (path : List String) : Keeps (change made f path) := by
  -- On the way to the table that is changed, one entry of each table is replaced by what the
  -- rest of the path makes of it.
  induction path with
  | nil => exact hf
  | cons key path ih =>
    intro t t' ht h
    rw [change] at h
    split at h
    -- There is nothing under the key: a table is made for the rest of the path.
    case h_1 =>
      obtain ⟨u, hu, rfl⟩ := Option.map_eq_some_iff.1 h
      exact distinct_put ht (ih _ u (distinct_empty made) hu)
    -- There is a table, and the rest of the path leads on within it.
    case h_2 u hfind =>
      split at h
      · cases h
      · obtain ⟨u', hu', rfl⟩ := Option.map_eq_some_iff.1 h
        exact distinct_put ht (ih u u' (distinct_find? ht hfind) hu')
    -- There is an array of tables, and the path leads into its last element.
    case h_3 us hfind =>
      have hus := sectionsDistinct_iff.1 (distinct_find? ht hfind)
      split at h
      · cases h
      · rename_i u hlast
        obtain ⟨u', hu', rfl⟩ := Option.map_eq_some_iff.1 h
        refine distinct_put ht (sectionsDistinct_iff.2 fun v hv => ?_)
        rcases List.mem_append.1 hv with hinit | hnew
        · exact hus v (List.dropLast_sublist us |>.mem hinit)
        · rw [List.mem_singleton.1 hnew]
          exact ih u u' (hus u (List.mem_of_getLast? hlast)) hu'
    case h_4 => cases h

/-- A key that is taken is refused, and any other is new. -/
theorem keeps_enterHere {v : Value} (hv : v.Distinct) (key : String) :
    Keeps (enterHere key v) := by
  intro t t' ht h
  rw [enterHere] at h
  split at h
  · cases h
  · obtain rfl := Option.some.inj h
    exact distinct_put ht hv

/-- A dotted path ends in a table where its last key is entered, and only that table is changed. -/
theorem keeps_enter {v : Value} (hv : v.Distinct) (path : List String) :
    Keeps (enter path v) := by
  intro t t' ht h
  unfold enter at h
  split at h
  · cases h
  · rename_i key _
    split at h
    · exact keeps_enterHere hv key t t' ht h
    -- Where the path ends, only a table that came about by dotted keys takes the entry.
    · refine keeps_change ?_ .dotted _ t t' ht h
      intro u u' hu hent
      simp only at hent
      split at hent
      · exact keeps_enterHere hv key u u' hu hent
      · cases hent

/-- Opening a table makes an empty one, or moves the one behind that is there. -/
theorem keeps_openTable (key : String) : Keeps (openTable key) := by
  intro t t' ht h
  unfold openTable at h
  split at h
  · obtain rfl := Option.some.inj h
    exact distinct_put ht (distinct_empty .header)
  · rename_i es hfind
    obtain rfl := Option.some.inj h
    -- The origin of a table has no part in its keys.
    have hes : (Section.mk .header es).Distinct := (distinct_find? ht hfind : Section.Distinct _)
    exact distinct_putLast ht hes
  · cases h

/-- Opening an element makes an empty table at the end of an array of tables. -/
theorem keeps_openElement (key : String) : Keeps (openElement key) := by
  intro t t' ht h
  unfold openElement at h
  split at h
  · obtain rfl := Option.some.inj h
    exact distinct_put ht ⟨distinct_empty .header, trivial⟩
  · rename_i us hfind
    obtain rfl := Option.some.inj h
    have hus := sectionsDistinct_iff.1 (distinct_find? ht hfind)
    -- The elements there are stay, and the one behind them is empty.
    refine distinct_put ht (sectionsDistinct_iff.2 fun u hu => ?_)
    rcases List.mem_append.1 hu with hold | hnew
    · exact hus u hold
    · rw [List.mem_singleton.1 hnew]
      exact distinct_empty .header
  · cases h

end Section

/-! ## §3 Texts -/

/-- All that a reader gives has a property. -/
def Reader.Yields {α : Type} (read : Reader α) (P : α → Prop) : Prop :=
  ∀ s a rest, read s = some (a, rest) → P a

/-- Values without values within. -/
def Value.IsScalar (v : Value) : Prop :=
  (∀ vs, v ≠ .array vs) ∧ ∀ es, v ≠ .table es

theorem Value.IsScalar.distinct {v : Value} (h : v.IsScalar) : v.Distinct := by
  cases v with
  | array vs => exact absurd rfl (h.1 vs)
  | table es => exact absurd rfl (h.2 es)
  | _ => trivial

theorem yields_readDecimal : Reader.Yields readDecimal Value.IsScalar := by
  intro s v rest h
  simp only [readDecimal, Option.bind_eq_bind] at h
  grind [Value.IsScalar, Option.bind_eq_some_iff, Option.map_eq_some_iff]

theorem yields_readSpecial : Reader.Yields readSpecial Value.IsScalar := by
  intro s v rest h
  simp only [readSpecial] at h
  grind [Value.IsScalar, Option.map_eq_some_iff]

theorem yields_readBased (base : ℕ) : Reader.Yields (readBased base) Value.IsScalar := by
  intro s v rest h
  simp only [readBased, Option.bind_eq_bind] at h
  grind [Value.IsScalar, Option.bind_eq_some_iff]

theorem yields_readInteger : Reader.Yields readInteger Value.IsScalar := by
  intro s v rest h
  have hbased := fun base s => yields_readBased base s v rest
  unfold readInteger at h
  simp only [Option.bind_eq_bind] at h
  grind [Value.IsScalar, Option.bind_eq_some_iff]

/-- A number is a date and time, a decimal number, infinite or no number, or an integer, and none of
    these holds other values. -/
theorem yields_readNumber : Reader.Yields readNumber Value.IsScalar := by
  intro s v rest h
  simp only [readNumber, Option.orElse_apply, Option.orElse_eq_or, Option.or_eq_some_iff,
    Option.map_eq_some_iff] at h
  -- A date and time comes first, and the other forms only where it is none.
  rcases h with ⟨⟨d, rest'⟩, -, heq⟩ | ⟨-, h | ⟨-, h | ⟨-, h⟩⟩⟩
  · obtain ⟨rfl, -⟩ := Prod.mk.inj heq
    exact ⟨nofun, nofun⟩
  · exact yields_readDecimal s v rest h
  · exact yields_readSpecial s v rest h
  · exact yields_readInteger s v rest h

theorem yields_readScalar : Reader.Yields readScalar Value.IsScalar := by
  intro s v rest h
  have hnumber := yields_readNumber s v rest
  simp only [readScalar] at h
  grind [Value.IsScalar, Option.map_eq_some_iff]

section Items

variable {item : Reader Value}

/-- All elements of an array are distinct within, if each element that is read is. -/
theorem yields_readElements (hitem : item.Yields Value.Distinct) (fuel : ℕ)
    {found : List Value} (hfound : ∀ v ∈ found, v.Distinct) :
    Reader.Yields (readElements item fuel found) fun vs => ∀ v ∈ vs, v.Distinct := by
  -- The values found so far are carried along, and are distinct throughout.
  induction fuel generalizing found with
  | zero => exact fun _ _ _ h => nomatch h
  | succ fuel ih =>
    intro s vs rest h
    have hreverse : ∀ v ∈ found.reverse, v.Distinct := fun v hv => hfound v (List.mem_reverse.1 hv)
    rw [readElements] at h
    split at h
    -- The bracket is closed here, or after a value and perhaps a comma.
    · obtain ⟨rfl, -⟩ := Prod.mk.inj (Option.some.inj h)
      exact hreverse
    · obtain ⟨⟨v, s'⟩, hv, h⟩ := Option.bind_eq_some_iff.1 h
      have hcons : ∀ w ∈ v :: found, w.Distinct :=
        List.forall_mem_cons.2 ⟨hitem _ _ _ hv, hfound⟩
      simp only at h
      split at h
      · exact ih hcons _ _ _ h
      · obtain ⟨rfl, -⟩ := Prod.mk.inj (Option.some.inj h)
        exact fun w hw => hcons w (List.mem_reverse.1 hw)
      · cases h

theorem yields_readEntry (hitem : item.Yields Value.Distinct) :
    Reader.Yields (readEntry item) fun e => e.2.Distinct := by
  intro s e rest h
  obtain ⟨⟨path, s'⟩, -, h⟩ := Option.bind_eq_some_iff.1 h
  simp only at h
  split at h
  · obtain ⟨⟨v, rest'⟩, hv, h⟩ := Option.bind_eq_some_iff.1 h
    obtain ⟨rfl, -⟩ := Prod.mk.inj (Option.some.inj h)
    exact hitem _ _ _ hv
  · cases h

/-- An inline table is filled entry by entry, like a table of the document. -/
theorem yields_readInline (hitem : item.Yields Value.Distinct) (fuel : ℕ) {t : Section}
    (ht : t.Distinct) : Reader.Yields (readInline item fuel t) Section.Distinct := by
  -- The table made so far is carried along, and each entry keeps it distinct.
  induction fuel generalizing t with
  | zero => exact fun _ _ _ h => nomatch h
  | succ fuel ih =>
    intro s t' rest h
    rw [readInline] at h
    obtain ⟨⟨⟨path, v⟩, s'⟩, hv, h⟩ := Option.bind_eq_some_iff.1 h
    obtain ⟨u, hu, h⟩ := Option.bind_eq_some_iff.1 h
    have hu' := Section.keeps_enter (yields_readEntry hitem _ _ _ hv) path t u ht hu
    split at h
    · exact ih hu' _ _ _ h
    · obtain ⟨rfl, -⟩ := Prod.mk.inj (Option.some.inj h)
      exact hu'
    · cases h

theorem yields_readBraces (hitem : item.Yields Value.Distinct) :
    Reader.Yields (readBraces item) Value.Distinct := by
  intro s v rest h
  rw [readBraces] at h
  split at h
  · obtain ⟨rfl, -⟩ := Prod.mk.inj (Option.some.inj h)
    exact ⟨List.nodup_nil, trivial⟩
  · obtain ⟨⟨t, rest'⟩, ht, heq⟩ := Option.map_eq_some_iff.1 h
    obtain ⟨rfl, -⟩ := Prod.mk.inj heq
    exact t.distinct_toValue
      (yields_readInline hitem _ (Section.distinct_empty .header) _ _ _ ht)

end Items

/-- Values within values are read with one level less to go, and on the last level there are only
    scalars. -/
theorem yields_readNested (depth : ℕ) : Reader.Yields (readNested depth) Value.Distinct := by
  -- The induction is on the levels that are left, since what stands in an array or in braces is
  -- read with the reader of one level less.
  induction depth with
  | zero => exact fun s v rest h => (yields_readScalar s v rest h).distinct
  | succ depth ih =>
    intro s v rest h
    rw [readNested.eq_def] at h
    split at h
    case h_1 heq =>
      cases heq
      obtain ⟨⟨vs, rest'⟩, hvs, heq⟩ := Option.map_eq_some_iff.1 h
      obtain ⟨rfl, -⟩ := Prod.mk.inj heq
      exact valuesDistinct_iff.2 (yields_readElements ih _ (List.forall_mem_nil _) _ _ _ hvs)
    case h_2 heq =>
      cases heq
      exact yields_readBraces ih _ _ _ h
    case h_3 => exact (yields_readScalar _ _ _ h).distinct

theorem yields_readValue : Reader.Yields readValue Value.Distinct :=
  yields_readNested maxNesting

/-- The value of an entry has distinct keys. -/
def Statement.Distinct : Statement → Prop
  | .entry _ v => v.Distinct
  | .table _ | .element _ => True

/-- Headers have no value, and that of an entry was read. -/
theorem yields_readStatement : Reader.Yields readStatement Statement.Distinct := by
  intro s st rest h
  unfold readStatement at h
  split at h
  -- A header of either kind holds nothing but a path.
  · unfold readHeader at h
    split at h
    · split at h
      · obtain ⟨rfl, -⟩ := Prod.mk.inj (Option.some.inj h)
        trivial
      · cases h
    · split at h
      · obtain ⟨rfl, -⟩ := Prod.mk.inj (Option.some.inj h)
        trivial
      · cases h
  · obtain ⟨⟨⟨path, v⟩, rest'⟩, hv, heq⟩ := Option.map_eq_some_iff.1 h
    obtain ⟨rfl, -⟩ := Prod.mk.inj heq
    exact yields_readEntry yields_readValue _ _ _ hv

/-- Every statement that is read off a text has distinct keys. -/
theorem distinct_readStatements (fuel : ℕ) {found sts : List Statement} {s : List Char}
    (hfound : ∀ st ∈ found, st.Distinct) (h : readStatements fuel found s = some sts) :
    ∀ st ∈ sts, st.Distinct := by
  induction fuel generalizing found s with
  | zero => cases h
  | succ fuel ih =>
    rw [readStatements] at h
    split at h
    · obtain rfl := Option.some.inj h
      exact fun st hst => hfound st (List.mem_reverse.1 hst)
    · split at h
      -- A line without a statement adds nothing.
      · exact ih hfound h
      · obtain ⟨⟨st, rest⟩, hst, h⟩ := Option.bind_eq_some_iff.1 h
        obtain ⟨rest', -, h⟩ := Option.bind_eq_some_iff.1 h
        exact ih (List.forall_mem_cons.2 ⟨yields_readStatement _ _ _ hst, hfound⟩) h

/-! ## §4 Documents -/

/-- A statement changes a document at one place, and keeps its keys distinct. -/
theorem distinct_apply {d d' : Draft} {st : Statement} (hd : d.root.Distinct)
    (hst : st.Distinct) (h : d.apply st = some d') : d'.root.Distinct := by
  -- Each kind of statement walks along its path and then does one thing at its end.
  cases st with
  | entry path v =>
    obtain ⟨root, hroot, rfl⟩ := Option.map_eq_some_iff.1 h
    exact Section.keeps_change (Section.keeps_enter hst path) _ _ _ _ hd hroot
  | table path =>
    obtain ⟨key, -, h⟩ := Option.bind_eq_some_iff.1 h
    obtain ⟨root, hroot, heq⟩ := Option.bind_eq_some_iff.1 h
    obtain rfl := Option.some.inj heq
    exact Section.keeps_change (Section.keeps_openTable key) _ _ _ _ hd hroot
  | element path =>
    obtain ⟨key, -, h⟩ := Option.bind_eq_some_iff.1 h
    obtain ⟨root, hroot, heq⟩ := Option.bind_eq_some_iff.1 h
    obtain rfl := Option.some.inj heq
    exact Section.keeps_change (Section.keeps_openElement key) _ _ _ _ hd hroot

theorem distinct_foldlM_apply {sts : List Statement} {d d' : Draft} (hd : d.root.Distinct)
    (hsts : ∀ st ∈ sts, st.Distinct) (h : sts.foldlM Draft.apply d = some d') :
    d'.root.Distinct := by
  induction sts generalizing d with
  | nil =>
    obtain rfl := Option.some.inj h
    exact hd
  | cons st sts ih =>
    obtain ⟨hst, hsts⟩ := List.forall_mem_cons.1 hsts
    rw [List.foldlM_cons] at h
    obtain ⟨u, hu, h⟩ := Option.bind_eq_some_iff.1 h
    exact ih (distinct_apply hd hst hu) hsts h

/-- A document that can be read has distinct keys, since it starts from the empty table. -/
theorem distinct_of_ofText? {text : String} {v : Value} (h : Value.ofText? text = some v) :
    v.Distinct := by
  obtain ⟨sts, hsts, h⟩ := Option.bind_eq_some_iff.1 h
  obtain ⟨d, hd, heq⟩ := Option.bind_eq_some_iff.1 h
  obtain rfl := Option.some.inj heq
  refine d.root.distinct_toValue (distinct_foldlM_apply (Section.distinct_empty .header) ?_ hd)
  exact distinct_readStatements _ (List.forall_mem_nil _) hsts

/-! ## §5 Layers -/

mutual

/-- A table that stands for a date leaves no keys, and all others keep theirs. -/
theorem Value.distinct_withDates? : (v v' : Value) → v.Distinct → v.withDates? = some v' →
    v'.Distinct
  | .table [], v', hv, h => by
    obtain rfl := Option.some.inj h
    exact hv
  | .table ((key, v) :: es), v', ⟨hkeys, hv, hes⟩, h => by
    -- Only a table that begins with the reserved key stands for a date.
    rw [Value.withDates?] at h
    split at h
    · obtain ⟨d, -, rfl⟩ := Option.map_eq_some_iff.1 h
      trivial
    · obtain ⟨u, hu, h⟩ := Option.bind_eq_some_iff.1 h
      obtain ⟨fs, hfs, h⟩ := Option.bind_eq_some_iff.1 h
      obtain rfl := Option.some.inj h
      obtain ⟨hdistinct, hsame⟩ := distinct_entriesWithDates? es fs hes hfs
      -- Rewriting the values of the entries leaves the keys alone, and so they stay distinct.
      have hkeys' : (keys ((key, u) :: fs)).Nodup := by
        change (key :: keys fs).Nodup
        rw [hsame]
        exact hkeys
      exact ⟨hkeys', v.distinct_withDates? u hv hu, hdistinct⟩
  | .array vs, v', hv, h => by
    obtain ⟨us, hus, rfl⟩ := Option.map_eq_some_iff.1 h
    exact distinct_valuesWithDates? vs us hv hus
  | .string _, v', hv, h => by
    obtain rfl := Option.some.inj h
    exact hv
  | .integer _, v', hv, h => by
    obtain rfl := Option.some.inj h
    exact hv
  | .float _, v', hv, h => by
    obtain rfl := Option.some.inj h
    exact hv
  | .boolean _, v', hv, h => by
    obtain rfl := Option.some.inj h
    exact hv
  | .datetime _, v', hv, h => by
    obtain rfl := Option.some.inj h
    exact hv

theorem distinct_valuesWithDates? : (vs vs' : List Value) → valuesDistinct vs →
    valuesWithDates? vs = some vs' → valuesDistinct vs'
  | [], _, _, h => by
    obtain rfl := Option.some.inj h
    trivial
  | v :: vs, vs', ⟨hv, hvs⟩, h => by
    obtain ⟨u, hu, h⟩ := Option.bind_eq_some_iff.1 h
    obtain ⟨us, hus, h⟩ := Option.bind_eq_some_iff.1 h
    obtain rfl := Option.some.inj h
    exact ⟨v.distinct_withDates? u hv hu, distinct_valuesWithDates? vs us hvs hus⟩

/-- Entries are rewritten one by one, and their keys stay as they are. -/
theorem distinct_entriesWithDates? : (es es' : List (String × Value)) → entriesDistinct es →
    entriesWithDates? es = some es' → entriesDistinct es' ∧ keys es' = keys es
  | [], _, _, h => by
    obtain rfl := Option.some.inj h
    exact ⟨trivial, rfl⟩
  | (key, v) :: es, es', ⟨hv, hes⟩, h => by
    obtain ⟨u, hu, h⟩ := Option.bind_eq_some_iff.1 h
    obtain ⟨fs, hfs, h⟩ := Option.bind_eq_some_iff.1 h
    obtain rfl := Option.some.inj h
    obtain ⟨hdistinct, hsame⟩ := distinct_entriesWithDates? es fs hes hfs
    exact ⟨⟨v.distinct_withDates? u hv hu, hdistinct⟩, congrArg (key :: ·) hsame⟩

end

/-- No key occurs twice in what a settings file says. -/
theorem distinct_of_ofLayerText? {text : String} {v : Value}
    (h : Value.ofLayerText? text = some v) : v.Distinct := by
  obtain ⟨u, hu, h⟩ := Option.bind_eq_some_iff.1 h
  exact u.distinct_withDates? v (distinct_of_ofText? hu) h

end Quicklook.Toml
