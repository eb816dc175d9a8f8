import RichAuthorization.Proofs.Coverage
import RichAuthorization.Proofs.Json
import RichAuthorization.Proofs.Validation

/-!
What a value grants, one choice at a time.
-/

namespace RichAuthorization

namespace Json

namespace Tree

mutual

def selections : Tree → List Tree
  | .array items => (itemSelections items).map fun s => .array [s]
  | .object members => (memberSelections members).map .object
  | t => [t]

def itemSelections : List Tree → List Tree
  | [] => []
  | t :: rest => t.selections ++ itemSelections rest

def memberSelections : List (String × Tree) → List (List (String × Tree))
  | [] => [[]]
  | (name, t) :: rest =>
    t.selections.flatMap fun s => (memberSelections rest).map fun chosen => (name, s) :: chosen

end

theorem mem_itemSelections {items : List Tree} {s : Tree} :
    s ∈ itemSelections items ↔ ∃ item ∈ items, s ∈ item.selections := by
  induction items with
  | nil => simp [itemSelections]
  | cons item rest ih => simp [itemSelections, ih]

theorem mem_memberSelections {members chosen : List (String × Tree)} :
    chosen ∈ memberSelections members ↔
      List.Forall₂ (fun member choice => choice.1 = member.1 ∧ choice.2 ∈ member.2.selections)
        members chosen := by
  induction members generalizing chosen with
  | nil => simp [memberSelections]
  | cons member rest ih =>
      obtain ⟨name, t⟩ := member
      simp only [memberSelections, List.mem_flatMap, List.mem_map, List.forall₂_cons_left_iff, ih]
      constructor
      · rintro ⟨s, hs, later, hlater, rfl⟩
        exact ⟨(name, s), later, ⟨rfl, hs⟩, hlater, rfl⟩
      · rintro ⟨⟨name', s⟩, later, ⟨rfl, hs⟩, hlater, rfl⟩
        exact ⟨s, hs, later, hlater, rfl⟩

theorem mem_selections_array {items : List Tree} {s : Tree} :
    s ∈ (Tree.array items).selections ↔
      ∃ item ∈ items, ∃ choice ∈ item.selections, s = .array [choice] := by
  simp only [selections, List.mem_map, mem_itemSelections]
  constructor
  · rintro ⟨choice, ⟨item, hitem, hchoice⟩, rfl⟩
    exact ⟨item, hitem, choice, hchoice, rfl⟩
  · rintro ⟨item, hitem, choice, hchoice, rfl⟩
    exact ⟨choice, ⟨item, hitem, hchoice⟩, rfl⟩

theorem mem_selections_object {members : List (String × Tree)} {s : Tree} :
    s ∈ (Tree.object members).selections ↔
      ∃ chosen ∈ memberSelections members, s = .object chosen := by
  simp [selections, eq_comm]

example :
    (Tree.object [("actions", .array [.string "initiate", .string "cancel"]),
        ("locations", .array [.string "eu"])]).selections =
      [.object [("actions", .array [.string "initiate"]), ("locations", .array [.string "eu"])],
        .object [("actions", .array [.string "cancel"]), ("locations", .array [.string "eu"])]] :=
  rfl

theorem names_of_mem_memberSelections {members chosen : List (String × Tree)}
    (h : chosen ∈ memberSelections members) :
    chosen.map Prod.fst = members.map Prod.fst := by
  have hall := mem_memberSelections.mp h
  clear h
  induction hall with
  | nil => rfl
  | cons hhead _ ih => simp [hhead.1, ih]

mutual

theorem canonical_of_mem_selections : (t : Tree) → t.Canonical → {s : Tree} → s ∈ t.selections →
    s.Canonical
  | .null, h, s, hs => List.mem_singleton.mp hs ▸ h
  | .bool _, h, s, hs => List.mem_singleton.mp hs ▸ h
  | .number _, h, s, hs => List.mem_singleton.mp hs ▸ h
  | .string _, h, s, hs => List.mem_singleton.mp hs ▸ h
  | .array items, h, s, hs => by
      obtain ⟨choice, hchoice, rfl⟩ := List.mem_map.mp hs
      exact ⟨canonical_of_mem_itemSelections items h hchoice, trivial⟩
  | .object members, h, s, hs => by
      obtain ⟨chosen, hchosen, rfl⟩ := List.mem_map.mp hs
      have hsorted := h.1.of_names_eq (names_of_mem_memberSelections hchosen)
      exact ⟨hsorted, canonical_of_mem_memberSelections members h.2 hchosen⟩

theorem canonical_of_mem_itemSelections : (items : List Tree) → ItemsCanonical items →
    {s : Tree} → s ∈ itemSelections items → s.Canonical
  | [], _, s, hs => by simp [itemSelections] at hs
  | t :: rest, h, s, hs => by
      rcases List.mem_append.mp hs with hs | hs
      · exact canonical_of_mem_selections t h.1 hs
      · exact canonical_of_mem_itemSelections rest h.2 hs

theorem canonical_of_mem_memberSelections : (members : List (String × Tree)) →
    MembersCanonical members → {chosen : List (String × Tree)} →
    chosen ∈ memberSelections members → MembersCanonical chosen
  | [], _, chosen, hchosen => List.mem_singleton.mp hchosen ▸ trivial
  | (name, t) :: rest, h, chosen, hchosen => by
      obtain ⟨s, hs, hmem⟩ := List.mem_flatMap.mp hchosen
      obtain ⟨later, hlater, rfl⟩ := List.mem_map.mp hmem
      exact ⟨canonical_of_mem_selections t h.1 hs,
        canonical_of_mem_memberSelections rest h.2 hlater⟩

end

-- The induction is on the covering value. The items of an array are searched one by one, and the
-- members of an object go side by side with those of the covered one.
mutual

theorem exists_selection_of_covers : (g : Tree) → g.Canonical → {r : Tree} → r.Canonical →
    g.covers r = true → {s : Tree} → s ∈ r.selections → ∃ t ∈ g.selections, t.same s = true
  | .null, _, r, _, h, s, hs => by
      rw [covers_null_iff.mp h] at hs
      exact ⟨s, hs, same_refl s⟩
  | .bool _, _, r, _, h, s, hs => by
      rw [covers_bool_iff.mp h] at hs
      exact ⟨s, hs, same_refl s⟩
  | .number n, _, r, _, h, s, hs => by
      obtain ⟨m, rfl, hsame⟩ := covers_number_iff.mp h
      rw [List.mem_singleton.mp hs]
      exact ⟨.number n, List.mem_singleton_self _, hsame⟩
  | .string _, _, r, _, h, s, hs => by
      rw [covers_string_iff.mp h] at hs
      exact ⟨s, hs, same_refl s⟩
  | .array granted, hg, r, hr, h, s, hs => by
      obtain ⟨requested, rfl, hcovers⟩ := covers_array_iff.mp h
      obtain ⟨item, hitem, choice, hchoice, rfl⟩ := mem_selections_array.mp hs
      have hcanonical := itemsCanonical_iff.mp hr item hitem
      obtain ⟨g, hmem, t, ht, hsame⟩ :=
        exists_selection_of_someCovers granted hg hcanonical (hcovers item hitem) hchoice
      exact ⟨.array [t], mem_selections_array.mpr ⟨g, hmem, t, ht, rfl⟩, by
        simp [same, sameItems, hsame]⟩
  | .object granted, hg, r, hr, h, s, hs => by
      obtain ⟨requested, rfl, -, -⟩ := covers_object_iff.mp h
      obtain ⟨chosen, hchosen, rfl⟩ := mem_selections_object.mp hs
      have hpairs := (covers_object_iff_forall₂ hg.1 hr.1).mp h
      obtain ⟨granting, hgranting, hsame⟩ :=
        exists_memberSelection_of_covers granted hg.2 hr.2 hpairs hchosen
      exact ⟨.object granting, mem_selections_object.mpr ⟨granting, hgranting, rfl⟩, hsame⟩

theorem exists_selection_of_someCovers : (granted : List Tree) → ItemsCanonical granted →
    {r : Tree} → r.Canonical → someCovers granted r = true → {s : Tree} → s ∈ r.selections →
    ∃ g ∈ granted, ∃ t ∈ g.selections, t.same s = true
  | [], _, r, _, h, s, _ => by simp [someCovers] at h
  | g :: rest, hg, r, hr, h, s, hs => by
      simp only [someCovers, Bool.or_eq_true] at h
      rcases h with h | h
      · have hselection := exists_selection_of_covers g hg.1 hr h hs
        exact ⟨g, List.mem_cons_self, hselection⟩
      · obtain ⟨g', hmem, hselection⟩ := exists_selection_of_someCovers rest hg.2 hr h hs
        exact ⟨g', List.mem_cons_of_mem _ hmem, hselection⟩

theorem exists_memberSelection_of_covers : (granted : List (String × Tree)) →
    MembersCanonical granted → {requested : List (String × Tree)} → MembersCanonical requested →
    List.Forall₂ MemberCovers granted requested →
    {chosen : List (String × Tree)} → chosen ∈ memberSelections requested →
    ∃ granting ∈ memberSelections granted, sameMembers granting chosen = true
  | [], _, requested, _, h, chosen, hchosen => by
      cases h
      exact ⟨chosen, hchosen, sameMembers_refl chosen⟩
  | (name, g) :: rest, hg, requested, hr, h, chosen, hchosen => by
      obtain ⟨⟨name', r⟩, later, ⟨rfl, hcovers⟩, hrest, rfl⟩ := List.forall₂_cons_left_iff.mp h
      obtain ⟨s, hs, hmem⟩ := List.mem_flatMap.mp hchosen
      obtain ⟨tail, htail, rfl⟩ := List.mem_map.mp hmem
      obtain ⟨t, ht, hsame⟩ := exists_selection_of_covers g hg.1 hr.1 hcovers hs
      obtain ⟨granting, hgranting, hsameTail⟩ :=
        exists_memberSelection_of_covers rest hg.2 hr.2 hrest htail
      refine ⟨(name, t) :: granting, ?_, by simp [sameMembers, hsame, hsameTail]⟩
      exact List.mem_flatMap.mpr ⟨t, ht, List.mem_map_of_mem hgranting⟩

end

end Tree

def selections (v : Json) : List Json :=
  v.tree.selections.map ofTree

theorem mem_selections_iff {v s : Json} : s ∈ v.selections ↔ s.tree ∈ v.tree.selections := by
  simp only [selections, List.mem_map]
  constructor
  · rintro ⟨t, ht, rfl⟩
    have hcanonical := Tree.canonical_of_mem_selections v.tree v.canonical ht
    rwa [tree_ofTree hcanonical]
  · intro hs
    exact ⟨s.tree, hs, ofTree_tree s⟩

theorem exists_selection_of_covers {g r : Json} (h : g.covers r = true) {s : Json}
    (hs : s ∈ r.selections) : ∃ t ∈ g.selections, (t == s) = true := by
  obtain ⟨t, ht, hsame⟩ := Tree.exists_selection_of_covers g.tree g.canonical r.canonical h
    (mem_selections_iff.mp hs)
  have hcanonical := Tree.canonical_of_mem_selections g.tree g.canonical ht
  exact ⟨⟨t, hcanonical⟩, mem_selections_iff.mpr ht, beq_iff.mpr hsame⟩

end Json

def Detail.permissions (d : Detail) : List Json :=
  (Json.object d.fields).selections

theorem covers_every_selection :
    (∀ g r : Json, g.covers r = true →
      ∀ s ∈ r.selections, ∃ t ∈ g.selections, (t == s) = true) ∧
    ∀ g r : Detail, g.covers r = true →
      ∀ s ∈ r.permissions, ∃ t ∈ g.permissions, (t == s) = true := by
  constructor
  · intro g r h s hs
    exact Json.exists_selection_of_covers h hs
  · intro g r h s hs
    have hobject : (Json.object g.fields).covers (Json.object r.fields) = true := h
    exact Json.exists_selection_of_covers hobject hs

namespace Payments

def transfer (actions ibans : List String) : Detail :=
  (detail actions).set "creditor"
    (.record [("ibans", .strings ibans), ("name", .string "Merchant A")])

def zero (negative : Bool) : Json :=
  .number (.double (.zero negative))

theorem transfer_covers_every_selection :
    (Json.array [.int 0, zero false]).covers (.array [zero true]) = true ∧
      Json.array [zero true] ∈ (Json.array [zero true]).selections ∧
      (∃ t ∈ (Json.array [.int 0, zero false]).selections, (t == .array [zero true]) = true) ∧
      (transfer ["initiate", "cancel"] ["DE02", "DE03"]).covers
        (transfer ["cancel"] ["DE03"]) = true ∧
      Json.object (transfer ["cancel"] ["DE03"]).fields ∈
        (transfer ["cancel"] ["DE03"]).permissions ∧
      ∃ t ∈ (transfer ["initiate", "cancel"] ["DE02", "DE03"]).permissions,
        (t == .object (transfer ["cancel"] ["DE03"]).fields) = true := by
  have hvalue : (Json.array [.int 0, zero false]).covers (.array [zero true]) = true := by decide
  have hchoice : Json.array [zero true] ∈ (Json.array [zero true]).selections :=
    List.mem_singleton_self _
  have hdetail : (transfer ["initiate", "cancel"] ["DE02", "DE03"]).covers
      (transfer ["cancel"] ["DE03"]) = true := by decide +kernel
  have hpermission : Json.object (transfer ["cancel"] ["DE03"]).fields ∈
      (transfer ["cancel"] ["DE03"]).permissions := List.mem_of_mem_head? rfl
  obtain ⟨hvalues, hdetails⟩ := covers_every_selection
  exact ⟨hvalue, hchoice, hvalues _ _ hvalue _ hchoice, hdetail, hpermission,
    hdetails _ _ hdetail _ hpermission⟩

end Payments

end RichAuthorization
