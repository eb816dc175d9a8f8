import Mathlib.Data.Set.List
import RichAuthorization.Proofs.Json
import RichAuthorization.Proofs.RoundTrip

/-!
What a reader takes from a value.
-/

namespace RichAuthorization.Json

def Place.inner (place : Place) : Place :=
  { place with depth := place.depth + 1 }

@[simp]
theorem Place.inner_origin (place : Place) : place.inner.origin = place.origin := rfl

theorem Place.enter_eq_ok_iff {place inner : Place} (h : place.origin ≠ .text) :
    place.enter = .ok inner ↔ inner = place.inner := by
  simp [enter, h, Place.inner, eq_comm]

def Decoder.Reads {α : Type} (decoder : Decoder α) (place : Place) (v : Json) (a : α) : Prop :=
  decoder place (Document.ofTree v.tree) = .ok a

theorem Decoder.Reads.unique {α : Type} {decoder : Decoder α} {place : Place} {v : Json} {a b : α}
    (ha : decoder.Reads place v a) (hb : decoder.Reads place v b) : a = b :=
  Except.ok.inj (ha.symm.trans hb)

namespace Decoder

variable {α : Type} {decoder : Decoder α} {place : Place}

theorem mapM_ofItems_eq_ok_iff {items : List Json} {as : List α} :
    (Document.ofItems (items.map Json.tree)).mapM (decoder place) = .ok as ↔
      List.Forall₂ (decoder.Reads place) items as := by
  induction items generalizing as with
  | nil => cases as <;> simp [Document.ofItems, pure, Except.pure]
  | cons v rest ih =>
      rw [List.map_cons, Document.ofItems, List.mapM_cons]
      simp only [Except.bind_eq_ok_iff, ih]
      constructor
      · rintro ⟨a, ha, later, hlater, heq⟩
        obtain rfl := Except.ok.inj heq
        exact .cons ha hlater
      · intro h
        cases h with
        | cons ha hlater => exact ⟨_, ha, _, hlater, rfl⟩

theorem reads_array_iff (hplace : place.origin ≠ .text) {items : List Json} {as : List α} :
    (list decoder).Reads place (.array items) as ↔
      List.Forall₂ (decoder.Reads place.inner) items as := by
  change list decoder place (.array (Document.ofItems (items.map Json.tree)) none) = .ok as ↔ _
  rw [list, Place.enter_bind hplace, ← mapM_ofItems_eq_ok_iff, Except.bind_eq_ok_iff]
  simp [finish, bind, Except.bind, pure, Except.pure, Place.inner]

theorem exists_items_of_list {v : Json} {as : List α}
    (h : list decoder place (Document.ofTree v.tree) = .ok as) : ∃ items, v = .array items := by
  obtain ⟨t, canonical⟩ := v
  cases t with
  | array trees => exact ⟨_, (array_map_ofTree canonical).symm⟩
  | _ =>
      simp only [Document.ofTree, list] at h
      exact absurd h wrongType_ne_ok

theorem reads_list_iff (hplace : place.origin ≠ .text) {v : Json} {as : List α} :
    (list decoder).Reads place v as ↔
      ∃ items, v = .array items ∧ List.Forall₂ (decoder.Reads place.inner) items as := by
  constructor
  · intro hread
    obtain ⟨items, rfl⟩ := exists_items_of_list hread
    exact ⟨items, rfl, (reads_array_iff hplace).mp hread⟩
  · rintro ⟨items, rfl, hitems⟩
    exact (reads_array_iff hplace).mpr hitems

theorem exists_reads_of_mem (hplace : place.origin ≠ .text) {items : List Json} {as : List α}
    (hread : (list decoder).Reads place (.array items) as) {v : Json} (hv : v ∈ items) :
    ∃ a, decoder.Reads place.inner v a := by
  have hboth : List.Forall₂ (fun v a =>
      (∃ a, decoder.Reads place.inner v a) ∧ decoder.Reads place.inner v a) items as :=
    ((reads_array_iff hplace).mp hread).imp fun v a ha => ⟨⟨a, ha⟩, ha⟩
  exact ((List.forall₂_and_left items as).mp hboth).1 v hv

end Decoder

namespace Object

def OnlyHas (o : Object) (names : List String) : Prop :=
  ∀ name, (o.find? name).isSome = true → name ∈ names

/-- What the member of a name gives: the value that is read from it, or the default where the member
is missing. Without a default it must not be missing. -/
def Gives {α : Type} (o : Object) (name : String) (reads : Json → α → Prop) (default? : Option α)
    (a : α) : Prop :=
  match o.find? name with
  | some v => reads v a
  | none => default? = some a

variable {α : Type} {o : Object} {name : String} {reads : Json → α → Prop} {default? : Option α}
  {a b : α} {v : Json}

theorem gives_of_find? (h : o.find? name = some v) : o.Gives name reads default? a ↔ reads v a := by
  simp only [Gives, h]

theorem gives_of_missing (h : o.find? name = none) :
    o.Gives name reads default? a ↔ default? = some a := by
  simp only [Gives, h]

theorem Gives.unique (hreads : ∀ v, reads v a → reads v b → a = b)
    (ha : o.Gives name reads default? a) (hb : o.Gives name reads default? b) : a = b := by
  cases h : o.find? name with
  | none =>
      rw [gives_of_missing h] at ha hb
      exact Option.some.inj (ha.symm.trans hb)
  | some v =>
      rw [gives_of_find? h] at ha hb
      exact hreads v ha hb

theorem gives_congr {reads' : Json → α → Prop}
    (h : ∀ v, o.find? name = some v → (reads v a ↔ reads' v a)) :
    o.Gives name reads default? a ↔ o.Gives name reads' default? a := by
  cases hfind : o.find? name with
  | none => rw [gives_of_missing hfind, gives_of_missing hfind]
  | some v => rw [gives_of_find? hfind, gives_of_find? hfind, h v hfind]

theorem find?_of_mem {member : String × Tree} (h : member ∈ o.members) :
    o.find? member.1 = some (ofTree member.2) := by
  rw [find?, o.canonical.1.find?_of_mem h]
  rfl

theorem find?_eq_some_iff : o.find? name = some v ↔ Named.find? name o.members = some v.tree := by
  constructor
  · intro h
    obtain ⟨t, ht, rfl⟩ := Option.map_eq_some_iff.mp h
    have hcanonical := Tree.membersCanonical_iff.mp o.canonical.2 _ (Named.mem_of_find? ht)
    rw [ht, tree_ofTree hcanonical]
  · intro h
    rw [find?, h, Option.map_some, ofTree_tree]

theorem isSome_find?_iff :
    (o.find? name).isSome = true ↔ name ∈ o.members.map Prod.fst := by
  rw [find?, Option.isSome_map, Named.isSome_find?_iff]

end Object

def AsObject {α : Type} (form : Object → α → Prop) (v : Json) (a : α) : Prop :=
  ∃ o, v = .object o ∧ form o a

def AsObjects {α : Type} (form : Object → α → Prop) (v : Json) (as : List α) : Prop :=
  ∃ objects, v = .array (objects.map object) ∧ List.Forall₂ form objects as

theorem Object.gives_asObject_iff {α : Type} {o : Object} {name : String}
    {reads : Json → α → Prop} {form : Object → α → Prop} {default? : Option α} {a : α}
    (hobject : ∀ v, o.find? name = some v → ∃ part, v = .object part)
    (hreads : ∀ part, o.find? name = some (.object part) →
      (reads (.object part) a ↔ form part a)) :
    o.Gives name reads default? a ↔ o.Gives name (AsObject form) default? a := by
  refine gives_congr fun v hv => ?_
  obtain ⟨part, rfl⟩ := hobject v hv
  rw [hreads part hv]
  constructor
  · exact fun h => ⟨part, rfl, h⟩
  · rintro ⟨other, heq, h⟩
    rwa [object_injective heq]

theorem Decoder.reads_array_objects_iff {α : Type} {decoder : Decoder α}
    {form : Object → α → Prop} {place : Place} (hplace : place.origin ≠ .text)
    (hreads : ∀ {o a}, decoder.Reads place.inner (.object o) a ↔ form o a)
    {objects : List Object} {as : List α} :
    (list decoder).Reads place (.array (objects.map object)) as ↔ List.Forall₂ form objects as := by
  rw [reads_array_iff hplace, List.forall₂_map_left_iff]
  simp only [hreads]

theorem Decoder.reads_objects_iff {α : Type} {decoder : Decoder α} {form : Object → α → Prop}
    {place : Place} (hplace : place.origin ≠ .text)
    (hreads : ∀ {o a}, decoder.Reads place.inner (.object o) a ↔ form o a) {v : Json}
    (hobjects : ∀ items, v = .array items → ∀ item ∈ items, ∃ o, item = .object o) {as : List α} :
    (list decoder).Reads place v as ↔ AsObjects form v as := by
  constructor
  · intro hread
    obtain ⟨items, rfl⟩ := exists_items_of_list hread
    have hrange : items ∈ Set.range (List.map object) := by
      rw [Set.range_list_map]
      intro item hitem
      obtain ⟨o, ho⟩ := hobjects items rfl item hitem
      exact ⟨o, ho.symm⟩
    obtain ⟨objects, rfl⟩ := hrange
    exact ⟨objects, rfl, (reads_array_objects_iff hplace hreads).mp hread⟩
  · rintro ⟨objects, rfl, h⟩
    exact (reads_array_objects_iff hplace hreads).mpr h

def MapOf {α : Type} (reads : Json → α → Prop) (v : Json) (map : NameMap α) : Prop :=
  ∃ o, v = .object o ∧ ∀ name, Option.Rel reads (o.find? name) (map.find? name)

namespace Decoder

variable {α : Type} {decoder : Decoder α} {place : Place}

def putMember (decoder : Decoder α) (place : Place) (map : NameMap α)
    (member : Document × Document) : Except DecodeError (NameMap α) := do
  let name ← memberName member.1
  let value ← decoder place member.2
  pure (map.insert name value)

theorem nameMap_object (members : List (Document × Document)) (stop : Option Fault) :
    nameMap decoder place (.object members stop) = (do
      let inner ← place.enter
      let result ← members.foldlM (decoder.putMember inner) .empty
      finish stop
      pure result) := rfl

theorem putMember_eq_ok_iff {name : String} {d : Document} {before after : NameMap α} :
    decoder.putMember place before (.string (.ok name) none, d) = .ok after ↔
      ∃ a, decoder place d = .ok a ∧ before.insert name a = after := by
  simp [putMember, Except.bind_eq_ok_iff, memberName, scanned, pure, Except.pure]

/-- What a map has under a name after some members were put into it. -/
def Holds (decoder : Decoder α) (place : Place) (members : List (String × Tree))
    (before after : NameMap α) (name : String) : Prop :=
  match Named.find? name members with
  | some t => ∃ a, decoder place (Document.ofTree t) = .ok a ∧ after.find? name = some a
  | none => after.find? name = before.find? name

section

variable {name n : String} {t : Tree} {rest : List (String × Tree)} {before after : NameMap α}

theorem holds_cons_self_iff : decoder.Holds place ((n, t) :: rest) before after n ↔
    ∃ a, decoder place (Document.ofTree t) = .ok a ∧ after.find? n = some a := by
  simp [Holds, Named.find?]

theorem holds_cons_of_ne (hne : n ≠ name) :
    decoder.Holds place ((n, t) :: rest) before after name ↔
      decoder.Holds place rest before after name := by
  simp [Holds, Named.find?, hne]

theorem holds_insert_self_iff (hmissing : Named.find? n rest = none) (a : α) :
    decoder.Holds place rest (before.insert n a) after n ↔ after.find? n = some a := by
  simp [Holds, hmissing, NameMap.find?_insert_self]

theorem holds_insert_of_ne (hne : n ≠ name) (a : α) :
    decoder.Holds place rest (before.insert n a) after name ↔
      decoder.Holds place rest before after name := by
  simp [Holds, NameMap.find?_insert_of_ne hne]

theorem forall_holds_cons_iff (hmissing : Named.find? n rest = none) :
    (∀ name, decoder.Holds place ((n, t) :: rest) before after name) ↔
      ∃ a, decoder place (Document.ofTree t) = .ok a ∧
        ∀ name, decoder.Holds place rest (before.insert n a) after name := by
  constructor
  · intro h
    obtain ⟨a, ha, hfound⟩ := holds_cons_self_iff.mp (h n)
    refine ⟨a, ha, fun name => ?_⟩
    by_cases hne : n = name
    · exact hne ▸ (holds_insert_self_iff hmissing a).mpr hfound
    · exact (holds_insert_of_ne hne a).mpr ((holds_cons_of_ne hne).mp (h name))
  · rintro ⟨a, ha, h⟩ name
    by_cases hne : n = name
    · exact hne ▸ holds_cons_self_iff.mpr ⟨a, ha, (holds_insert_self_iff hmissing a).mp (h n)⟩
    · exact (holds_cons_of_ne hne).mpr ((holds_insert_of_ne hne a).mp (h name))

end

-- The induction is on the members, for any map that is there before: where a member is put in, no
-- later one has its name.
theorem foldlM_putMember_eq_ok_iff {members : List (String × Tree)}
    (hnames : (members.map Prod.fst).Nodup) {before after : NameMap α} :
    (Document.ofMembers members).foldlM (decoder.putMember place) before = .ok after ↔
      ∀ name, decoder.Holds place members before after name := by
  induction members generalizing before with
  | nil =>
      simp only [Holds, Named.find?]
      constructor
      · intro h name
        rw [Except.ok.inj h]
      · intro h
        exact congrArg Except.ok (NameMap.ext_find? h).symm
  | cons member rest ih =>
      obtain ⟨n, t⟩ := member
      obtain ⟨hn, hrest⟩ := List.nodup_cons.mp hnames
      have hmissing : Named.find? n rest = none :=
        Option.not_isSome_iff_eq_none.mp fun hsome => hn (Named.isSome_find?_iff.mp hsome)
      rw [forall_holds_cons_iff hmissing, Document.ofMembers, List.foldlM_cons,
        Except.bind_eq_ok_iff]
      simp only [putMember_eq_ok_iff, ← ih hrest]
      constructor
      · rintro ⟨_, ⟨a, ha, rfl⟩, hlater⟩
        exact ⟨a, ha, hlater⟩
      · rintro ⟨a, ha, hlater⟩
        exact ⟨_, ⟨a, ha, rfl⟩, hlater⟩

theorem holds_empty_iff {o : Object} {map : NameMap α} {name : String} :
    decoder.Holds place o.members .empty map name ↔
      Option.Rel (decoder.Reads place) (o.find? name) (map.find? name) := by
  cases hfind : o.find? name with
  | none =>
      rw [Holds, Object.find?_eq_none_iff.mp hfind, NameMap.find?_empty]
      cases map.find? name <;> simp
  | some v =>
      rw [Holds, Object.find?_eq_some_iff.mp hfind]
      cases map.find? name <;> simp [Reads]

theorem reads_nameMap_iff (hplace : place.origin ≠ .text) {v : Json} {map : NameMap α} :
    (nameMap decoder).Reads place v map ↔ MapOf (decoder.Reads place.inner) v map := by
  have hobject : ∀ o, (nameMap decoder).Reads place (.object o) map ↔
      ∀ name, Option.Rel (decoder.Reads place.inner) (o.find? name) (map.find? name) := by
    intro o
    change nameMap decoder place (.object (Document.ofMembers o.members) none) = .ok map ↔ _
    simp only [← holds_empty_iff, ← foldlM_putMember_eq_ok_iff o.canonical.1.nodup_names]
    rw [nameMap_object, Place.enter_bind hplace, Except.bind_eq_ok_iff]
    simp [finish, bind, Except.bind, pure, Except.pure, Place.inner]
  constructor
  · intro hread
    obtain ⟨t, canonical⟩ := v
    cases t with
    | object members => exact ⟨⟨members, canonical⟩, rfl, (hobject _).mp hread⟩
    | _ =>
        simp only [Reads, Document.ofTree, nameMap] at hread
        exact absurd hread wrongType_ne_ok
  · rintro ⟨o, rfl, h⟩
    exact (hobject o).mpr h

end Decoder

end RichAuthorization.Json
