import Quicklook.Catalog.Attribute
import Std.Data.ExtTreeMap

/-!
# Catalog records

An entry of a catalog: an identifier, a title, and attributes, each under its own name.
Renditions change two of the attributes: the thumbnail is replaced, and the URIs of derived
resources accumulate.

Main statements: setting an attribute is seen under its own name and nowhere else
(`attribute?_set`), attaching replaces (`thumbnail?_withThumbnail`), registering appends
(`values_withUri`), and a record is known by what is found in it (`ext_attribute?`).
-/

namespace Quicklook

/-- An entry of a catalog. -/
structure Record where
  id : String
  title : String
  attributes : Std.ExtTreeMap String Attribute
  /-- Every attribute stands under its own name. -/
  named : ∀ (name : String) (a : Attribute), attributes[name]? = some a → a.name = name
deriving DecidableEq

namespace Record

/-! ## §1 Attributes -/

/-- A record without attributes. -/
def empty (id title : String) : Record :=
  ⟨id, title, ∅, by simp⟩

/-- The attribute of a name. -/
def attribute? (r : Record) (name : String) : Option Attribute :=
  r.attributes[name]?

/-- The record with an attribute in the place of any other of its name. -/
def set (r : Record) (a : Attribute) : Record where
  id := r.id
  title := r.title
  attributes := r.attributes.insert a.name a
  named name b hb := by
    rw [Std.ExtTreeMap.getElem?_insert] at hb
    split at hb
    · rename_i hn
      obtain rfl := Option.some.inj hb
      exact Std.LawfulEqCmp.eq_of_compare hn
    · exact r.named name b hb

/-- The attributes in the order of their names. -/
def toList (r : Record) : List Attribute :=
  r.attributes.values

/-- An attribute that is found under a name has that name. -/
theorem name_of_attribute? {r : Record} {name : String} {a : Attribute}
    (h : r.attribute? name = some a) : a.name = name :=
  r.named name a h

@[simp] theorem id_set (r : Record) (a : Attribute) : (r.set a).id = r.id := rfl

@[simp] theorem title_set (r : Record) (a : Attribute) : (r.set a).title = r.title := rfl

@[simp] theorem attribute?_empty (id title name : String) :
    (empty id title).attribute? name = none := by
  simp [empty, attribute?]

/-- A set attribute is found under its name, and no other look-up changes. -/
theorem attribute?_set (r : Record) (a : Attribute) (name : String) :
    (r.set a).attribute? name = if a.name = name then some a else r.attribute? name := by
  simp [set, attribute?, Std.ExtTreeMap.getElem?_insert]

/-- Two records with the same identifier, title and look-ups are equal. -/
theorem ext_attribute? {r s : Record} (hi : r.id = s.id) (ht : r.title = s.title)
    (ha : ∀ name, r.attribute? name = s.attribute? name) : r = s := by
  cases r; cases s
  simp only [mk.injEq]
  exact ⟨hi, ht, Std.ExtTreeMap.ext_getElem? ha⟩

/-! ## §2 The thumbnail -/

/-- The name of the attribute that holds the thumbnail. -/
def thumbnailName : String :=
  "thumbnail"

/-- The thumbnail of a record: the first value of its attribute, if it is a file. -/
def thumbnail? (r : Record) : Option Bytes :=
  (r.attribute? thumbnailName).bind fun a => a.first?.bind Value.binary?

/-- The record with a thumbnail in the place of any earlier one. -/
def withThumbnail (r : Record) (content : Bytes) : Record :=
  r.set (.single thumbnailName (.binary content))

@[simp] theorem id_withThumbnail (r : Record) (content : Bytes) :
    (r.withThumbnail content).id = r.id := rfl

@[simp] theorem title_withThumbnail (r : Record) (content : Bytes) :
    (r.withThumbnail content).title = r.title := rfl

/-- Attaching a thumbnail changes one attribute. -/
theorem attribute?_withThumbnail (r : Record) (content : Bytes) (name : String) :
    (r.withThumbnail content).attribute? name =
      if thumbnailName = name then some (.single thumbnailName (.binary content))
      else r.attribute? name :=
  attribute?_set r _ name

/-- An attached thumbnail is the record's thumbnail. -/
@[simp] theorem thumbnail?_withThumbnail (r : Record) (content : Bytes) :
    (r.withThumbnail content).thumbnail? = some content := by
  simp [thumbnail?, withThumbnail, attribute?_set, Attribute.first?, Value.binary?]

/-! ## §3 Derived resources -/

/-- The name of the attribute that lists the derived resources. -/
def derivedName : String :=
  "resource.derived-uri"

/-- The URI of a derived resource of a record. -/
def derivedUri (recordId qualifier : String) : String :=
  "content:" ++ recordId ++ "#" ++ qualifier

/-- The URIs of the derived resources, in the order of their registration. -/
def derivedUris (r : Record) : List String :=
  ((r.attribute? derivedName).map fun a => a.values.filterMap Value.text?).getD []

/-- The attribute with one more URI. -/
def withUri (a : Option Attribute) (uri : String) : Attribute :=
  match a with
  | some a => a.push (.text uri)
  | none => .single derivedName (.text uri)

/-- The record with one more derived resource. -/
def register (r : Record) (uri : String) : Record :=
  r.set (withUri (r.attribute? derivedName) uri)

@[simp] theorem id_register (r : Record) (uri : String) : (r.register uri).id = r.id := rfl

@[simp] theorem title_register (r : Record) (uri : String) :
    (r.register uri).title = r.title := rfl

/-- The attribute that lists the derived resources keeps its name. -/
theorem name_withUri (r : Record) (uri : String) :
    (withUri (r.attribute? derivedName) uri).name = derivedName := by
  cases ha : r.attribute? derivedName with
  | none => rfl
  | some a =>
    show a.name = derivedName
    exact name_of_attribute? ha

/-- Registering changes one attribute. -/
theorem attribute?_register (r : Record) (uri name : String) :
    (r.register uri).attribute? name =
      if derivedName = name then some (withUri (r.attribute? derivedName) uri)
      else r.attribute? name := by
  rw [register, attribute?_set, name_withUri]

/-- Registering appends to the values that were there, of whatever kind they are. -/
theorem values_withUri (a : Option Attribute) (uri : String) :
    (withUri a uri).values = (a.map Attribute.values).getD [] ++ [.text uri] := by
  cases a <;> simp [withUri]

end Record

end Quicklook
