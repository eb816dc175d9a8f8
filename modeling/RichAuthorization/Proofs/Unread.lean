import RichAuthorization.Proofs.Members

/-!
Members that no reader asks for.
-/

namespace RichAuthorization.Json

def AgreeOn (names : List String) (v w : Json) : Prop :=
  v = w ∨ ∃ o o', v = .object o ∧ w = .object o' ∧ ∀ name ∈ names, o.find? name = o'.find? name

def ItemsRelated (R : Json → Json → Prop) (v w : Json) : Prop :=
  v = w ∨ ∃ items items', v = .array items ∧ w = .array items' ∧ List.Forall₂ R items items'

namespace Object

def Related (R : String → Json → Json → Prop) (o o' : Object) : Prop :=
  List.Forall₂ (fun a b => a.1 = b.1 ∧ R a.1 a.2 b.2) o.toList o'.toList

theorem members_eq (o : Object) :
    o.members = o.toList.map fun member => (member.1, member.2.tree) := by
  have hmember : ∀ member ∈ o.members, (member.1, (ofTree member.2).tree) = member := by
    intro member hmember
    rw [tree_ofTree (Tree.membersCanonical_iff.mp o.canonical.2 member hmember)]
  rw [toList, List.map_map]
  exact ((List.map_congr_left hmember).trans (List.map_id _)).symm

theorem find?_members (o : Object) (name : String) :
    Named.find? name o.members = (o.find? name).map Json.tree := by
  cases hfind : o.find? name with
  | none => exact find?_eq_none_iff.mp hfind
  | some v => exact find?_eq_some_iff.mp hfind

end Object

def MembersRelated (R : Json → Json → Prop) (v w : Json) : Prop :=
  v = w ∨ ∃ o o', v = .object o ∧ w = .object o' ∧ o.Related (fun _ => R) o'

def Decoder.ReadsAlike {α : Type} (decoder : Decoder α) (R : Json → Json → Prop) : Prop :=
  ∀ place v w, R v w →
    decoder place (Document.ofTree v.tree) = decoder place (Document.ofTree w.tree)

namespace Decoder.ReadsAlike

variable {α : Type} {decoder : Decoder α} {R : Json → Json → Prop}

theorem refl : decoder.ReadsAlike Eq := by
  rintro place v w rfl
  rfl

theorem mapM (h : decoder.ReadsAlike R) {items items' : List Json}
    (hitems : List.Forall₂ R items items') (place : Place) :
    (Document.ofItems (items.map Json.tree)).mapM (decoder place) =
      (Document.ofItems (items'.map Json.tree)).mapM (decoder place) := by
  induction hitems with
  | nil => rfl
  | cons hitem _ ih =>
      simp only [List.map_cons, Document.ofItems, List.mapM_cons, h place _ _ hitem, ih]

theorem list (h : decoder.ReadsAlike R) : decoder.list.ReadsAlike (ItemsRelated R) := by
  rintro place v w (rfl | ⟨items, items', rfl, rfl, hitems⟩)
  · rfl
  · change Decoder.list decoder place (.array (Document.ofItems (items.map Json.tree)) none) =
      Decoder.list decoder place (.array (Document.ofItems (items'.map Json.tree)) none)
    simp only [Decoder.list, h.mapM hitems]

-- The induction is on the members, for any map read from the members before.
theorem foldlM_putMember (h : decoder.ReadsAlike R) {members members' : List (String × Json)}
    (hmembers : List.Forall₂ (fun a b => a.1 = b.1 ∧ R a.2 b.2) members members') (place : Place)
    (map : NameMap α) :
    (Document.ofMembers (members.map fun member => (member.1, member.2.tree))).foldlM
        (decoder.putMember place) map =
      (Document.ofMembers (members'.map fun member => (member.1, member.2.tree))).foldlM
        (decoder.putMember place) map := by
  induction hmembers generalizing map with
  | nil => rfl
  | cons hmember _ ih =>
      obtain ⟨hname, hvalue⟩ := hmember
      simp only [List.map_cons, Document.ofMembers, List.foldlM_cons, putMember, hname,
        h place _ _ hvalue, ih]

theorem nameMap (h : decoder.ReadsAlike R) :
    (Decoder.nameMap decoder).ReadsAlike (MembersRelated R) := by
  rintro place v w (rfl | ⟨o, o', rfl, rfl, hmembers⟩)
  · rfl
  · change Decoder.nameMap decoder place (.object (Document.ofMembers o.members) none) =
      Decoder.nameMap decoder place (.object (Document.ofMembers o'.members) none)
    simp only [nameMap_object, o.members_eq, o'.members_eq, h.foldlM_putMember hmembers]

end Decoder.ReadsAlike

namespace RecordFormat

variable {σ : Type} {format : RecordFormat σ} {place : Place}

theorem readMembers_ofMembers_cons_eq {name : String} {t : Tree} {rest : List (String × Tree)}
    {seen : List String} {state : σ} :
    format.readMembers place (Document.ofMembers ((name, t) :: rest)) seen state =
      match format.field? name with
      | some field =>
        if name ∈ seen then Decoder.mismatch (.duplicateField name)
        else do
          let set ← field.read place (Document.ofTree t)
          format.readMembers place (Document.ofMembers rest) (name :: seen) (set state)
      | none =>
        if format.closed then Decoder.mismatch (.unknownField name format.fieldNames)
        else format.readMembers place (Document.ofMembers rest) seen state := by
  rw [Document.ofMembers, readMembers, Document.skipFault?_ofTree]
  rfl

theorem readMembers_congr {members members' : List (String × Tree)}
    (h : List.Forall₂ (fun a b => a.1 = b.1 ∧ ∀ field, format.field? a.1 = some field →
      field.read place (Document.ofTree a.2) = field.read place (Document.ofTree b.2))
      members members') (seen : List String) (state : σ) :
    format.readMembers place (Document.ofMembers members) seen state =
      format.readMembers place (Document.ofMembers members') seen state := by
  induction h generalizing seen state with
  | nil => rfl
  | @cons a b _ _ hmember _ ih =>
      obtain ⟨name, t⟩ := a
      obtain ⟨_, u⟩ := b
      obtain ⟨rfl, hread⟩ := hmember
      rw [readMembers_ofMembers_cons_eq, readMembers_ofMembers_cons_eq]
      cases hfield : format.field? name with
      | none => simp only [ih]
      | some field => simp only [hread field hfield, ih]

theorem readMembers_filter (hopen : format.closed = false) {names : List String}
    (hnames : ∀ name, (format.field? name).isSome = true → name ∈ names)
    (members : List (String × Tree)) (seen : List String) (state : σ) :
    format.readMembers place (Document.ofMembers (members.filter fun member => member.1 ∈ names))
        seen state =
      format.readMembers place (Document.ofMembers members) seen state := by
  induction members generalizing seen state with
  | nil => rfl
  | cons member rest ih =>
      obtain ⟨name, t⟩ := member
      by_cases hname : name ∈ names
      · rw [List.filter_cons_of_pos (by simpa using hname)]
        simp only [readMembers_ofMembers_cons_eq, ih]
      · have hnone : format.field? name = none :=
          Option.not_isSome_iff_eq_none.mp fun hsome => hname (hnames name hsome)
        rw [List.filter_cons_of_neg (by simpa using hname), readMembers_ofMembers_cons_eq, hnone,
          ih]
        simp [hopen]

theorem decode_object_congr {o o' : Object}
    (h : ∀ place, format.readMembers place (Document.ofMembers o.members) [] format.initial =
      format.readMembers place (Document.ofMembers o'.members) [] format.initial) (place : Place) :
    format.decode place (Document.ofTree (Json.object o).tree) =
      format.decode place (Document.ofTree (Json.object o').tree) := by
  change format.decode place (.object (Document.ofMembers o.members) none) =
    format.decode place (.object (Document.ofMembers o'.members) none)
  simp only [decode, h]

theorem readsAlike_of_open (hopen : format.closed = false) {names : List String}
    (hnames : ∀ name, (format.field? name).isSome = true → name ∈ names) :
    format.decode.ReadsAlike (AgreeOn names) := by
  rintro place v w (rfl | ⟨o, o', rfl, rfl, hagree⟩)
  · rfl
  · have hsorted : ∀ o : Object,
        Named.Sorted (o.members.filter fun member => member.1 ∈ names) :=
      fun o => List.Pairwise.filter _ o.canonical.1
    have hmembers : (o.members.filter fun member => member.1 ∈ names) =
        o'.members.filter fun member => member.1 ∈ names := by
      refine (hsorted o).ext (hsorted o') fun name => ?_
      rw [Named.find?_filter, Named.find?_filter]
      split
      · next hname => rw [o.find?_members, o'.find?_members, hagree name hname]
      · rfl
    refine decode_object_congr (fun place => ?_) place
    rw [← readMembers_filter hopen hnames, hmembers, readMembers_filter hopen hnames]

theorem HasSlots.decode_congr {slots : List (Slot σ)} (h : format.HasSlots slots)
    {R : String → Json → Json → Prop}
    (halike : ∀ slot ∈ slots, slot.decoder.ReadsAlike (R slot.name)) {o o' : Object}
    (hrelated : o.Related R o') (place : Place) :
    format.decode place (Document.ofTree (Json.object o).tree) =
      format.decode place (Document.ofTree (Json.object o').tree) := by
  refine decode_object_congr (fun place => readMembers_congr ?_ [] format.initial) place
  rw [o.members_eq, o'.members_eq, List.forall₂_map_left_iff, List.forall₂_map_right_iff]
  refine hrelated.imp fun a b ⟨hname, hvalues⟩ => ⟨hname, fun field hfield => ?_⟩
  obtain ⟨slot, hslot, hslotName, rfl⟩ := h.field?_eq_some_iff.mp hfield
  have hread := halike slot hslot place a.2 b.2 (hslotName ▸ hvalues)
  simp only [Slot.field]
  split <;> exact congrArg (Except.map slot.set) hread

end RecordFormat

end RichAuthorization.Json
