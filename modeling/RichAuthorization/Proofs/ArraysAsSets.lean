import RichAuthorization.Proofs.Detail
import RichAuthorization.Proofs.Preorder

/-!
Values whose arrays are read as sets.
-/

namespace RichAuthorization

namespace Json

namespace Tree

def isScalar : Tree → Bool
  | .array _ => false
  | .object _ => false
  | _ => true

mutual

def isFlat : Tree → Bool
  | .array items => items.all isScalar
  | .object members => membersFlat members
  | _ => true

def membersFlat : List (String × Tree) → Bool
  | [] => true
  | (_, t) :: rest => t.isFlat && membersFlat rest

end

mutual

def sameSets : Tree → Tree → Bool
  | .array as, .array bs => within as bs && bs.all fun b => occurs as b
  | .object as, .object bs => sameSetMembers as bs
  | a, b => a.same b
termination_by structural a => a

def within : List Tree → List Tree → Bool
  | [], _ => true
  | a :: as, bs => (bs.any fun b => a.sameSets b) && within as bs
termination_by structural as => as

def occurs : List Tree → Tree → Bool
  | [], _ => false
  | a :: as, b => a.sameSets b || occurs as b
termination_by structural as => as

def sameSetMembers : List (String × Tree) → List (String × Tree) → Bool
  | [], [] => true
  | (m, a) :: as, (n, b) :: bs => m == n && a.sameSets b && sameSetMembers as bs
  | _, _ => false
termination_by structural as => as

end

theorem within_iff {as bs : List Tree} :
    within as bs = true ↔ ∀ a ∈ as, ∃ b ∈ bs, a.sameSets b = true := by
  induction as with
  | nil => simp [within]
  | cons a as ih => simp [within, ih]

theorem occurs_iff {as : List Tree} {b : Tree} :
    occurs as b = true ↔ ∃ a ∈ as, a.sameSets b = true := by
  induction as with
  | nil => simp [occurs]
  | cons a as ih => simp [occurs, ih]

theorem sameSets_array_iff {as bs : List Tree} :
    (Tree.array as).sameSets (.array bs) = true ↔
      (∀ a ∈ as, ∃ b ∈ bs, a.sameSets b = true) ∧ ∀ b ∈ bs, ∃ a ∈ as, a.sameSets b = true := by
  simp [sameSets, within_iff, occurs_iff]

theorem sameSetMembers_iff {as bs : List (String × Tree)} :
    sameSetMembers as bs = true ↔
      List.Forall₂ (fun a b => a.1 = b.1 ∧ a.2.sameSets b.2 = true) as bs := by
  induction as generalizing bs with
  | nil => cases bs <;> simp [sameSetMembers]
  | cons a as ih => cases bs <;> simp [sameSetMembers, ih, and_assoc]

theorem sameSets_of_isScalar {a : Tree} (h : a.isScalar = true) (b : Tree) :
    a.sameSets b = a.same b := by
  cases a <;> simp_all [isScalar, sameSets]

theorem covers_of_isScalar {a : Tree} (h : a.isScalar = true) (b : Tree) :
    a.covers b = a.same b := by
  cases a <;> simp_all [isScalar, covers]

-- The induction is on the first value, for both directions at once: the items of its arrays are the
-- ones that are searched in the one direction and looked for in the other.
mutual

theorem covers_of_sameSets : (a : Tree) → a.Canonical → {b : Tree} → b.Canonical →
    a.sameSets b = true → a.covers b = true ∧ b.covers a = true
  | .null, _, b, _, h => by cases b <;> simp_all [sameSets, same, covers]
  | .bool _, _, b, _, h => by cases b <;> simp_all [sameSets, same, covers]
  | .number _, _, b, _, h => by cases b <;> simp_all [sameSets, same, covers, Number.same_comm]
  | .string _, _, b, _, h => by cases b <;> simp_all [sameSets, same, covers]
  | .array as, ha, b, hb, h => by
      cases b with
      | array bs =>
          simp only [sameSets, Bool.and_eq_true, List.all_eq_true] at h
          obtain ⟨hwithin, hoccurs⟩ := h
          have hitems := itemsCanonical_iff.mp hb
          constructor
          · refine covers_array_iff.mpr ⟨bs, rfl, fun b hmem => ?_⟩
            exact someCovers_of_occurs as ha (hitems b hmem) (hoccurs b hmem)
          · refine covers_array_iff.mpr ⟨as, rfl, ?_⟩
            exact someCovers_of_within as ha hitems hwithin
      | _ => simp [sameSets, same] at h
  | .object as, ha, b, hb, h => by
      cases b with
      | object bs =>
          obtain ⟨hforth, hback⟩ := memberCovers_of_sameSetMembers as ha.2 hb.2 h
          exact ⟨(covers_object_iff_forall₂ ha.1 hb.1).mpr hforth,
            (covers_object_iff_forall₂ hb.1 ha.1).mpr hback⟩
      | _ => simp [sameSets, same] at h

theorem someCovers_of_occurs : (as : List Tree) → ItemsCanonical as → {b : Tree} → b.Canonical →
    occurs as b = true → someCovers as b = true
  | [], _, b, _, h => by simp [occurs] at h
  | a :: as, ha, b, hb, h => by
      simp only [occurs, someCovers, Bool.or_eq_true] at h ⊢
      rcases h with h | h
      · exact .inl (covers_of_sameSets a ha.1 hb h).1
      · exact .inr (someCovers_of_occurs as ha.2 hb h)

theorem someCovers_of_within : (as : List Tree) → ItemsCanonical as → {bs : List Tree} →
    (∀ b ∈ bs, b.Canonical) → within as bs = true → ∀ a ∈ as, someCovers bs a = true
  | [], _, _, _, _ => List.forall_mem_nil _
  | a :: as, ha, bs, hb, h => by
      simp only [within, Bool.and_eq_true, List.any_eq_true] at h
      obtain ⟨⟨b, hmem, hsame⟩, hrest⟩ := h
      have hcovers := (covers_of_sameSets a ha.1 (hb b hmem) hsame).2
      exact List.forall_mem_cons.mpr
        ⟨someCovers_iff.mpr ⟨b, hmem, hcovers⟩, someCovers_of_within as ha.2 hb hrest⟩

theorem memberCovers_of_sameSetMembers : (as : List (String × Tree)) → MembersCanonical as →
    {bs : List (String × Tree)} → MembersCanonical bs → sameSetMembers as bs = true →
    List.Forall₂ MemberCovers as bs ∧ List.Forall₂ MemberCovers bs as
  | [], _, bs, _, h => by
      cases bs with
      | nil => exact ⟨.nil, .nil⟩
      | cons b bs => simp [sameSetMembers] at h
  | (name, a) :: as, ha, bs, hb, h => by
      cases bs with
      | nil => simp [sameSetMembers] at h
      | cons b bs =>
          simp only [sameSetMembers, Bool.and_eq_true, beq_iff_eq] at h
          obtain ⟨⟨hname, hsame⟩, hrest⟩ := h
          obtain ⟨hforth, hback⟩ := covers_of_sameSets a ha.1 hb.1 hsame
          obtain ⟨hforths, hbacks⟩ := memberCovers_of_sameSetMembers as ha.2 hb.2 hrest
          exact ⟨.cons ⟨hname, hforth⟩ hforths, .cons ⟨hname.symm, hback⟩ hbacks⟩

end

theorem sameSets_of_covers_items {as bs : List Tree} (ha : (Tree.array as).isFlat = true)
    (hb : (Tree.array bs).isFlat = true) (hforth : (Tree.array as).covers (.array bs) = true)
    (hback : (Tree.array bs).covers (.array as) = true) :
    (Tree.array as).sameSets (.array bs) = true := by
  have hscalars := List.all_eq_true.mp ha
  have hscalars' := List.all_eq_true.mp hb
  have hfound : ∀ {granted requested : List Tree}, (∀ g ∈ granted, g.isScalar = true) →
      (Tree.array granted).covers (.array requested) = true →
      ∀ r ∈ requested, ∃ g ∈ granted, g.same r = true := by
    intro granted requested hflat h r hr
    obtain ⟨_, heq, hcovers⟩ := covers_array_iff.mp h
    cases heq
    obtain ⟨g, hg, hgr⟩ := someCovers_iff.mp (hcovers r hr)
    exact ⟨g, hg, by rwa [covers_of_isScalar (hflat g hg)] at hgr⟩
  refine sameSets_array_iff.mpr ⟨fun a hmem => ?_, fun b hmem => ?_⟩
  · obtain ⟨b, hbs, hsame⟩ := hfound hscalars' hback a hmem
    exact ⟨b, hbs, by rwa [sameSets_of_isScalar (hscalars a hmem), same_comm]⟩
  · obtain ⟨a, has, hsame⟩ := hfound hscalars hforth b hmem
    exact ⟨a, has, by rwa [sameSets_of_isScalar (hscalars a has)]⟩

mutual

theorem sameSets_of_covers : (a : Tree) → a.Canonical → a.isFlat = true → {b : Tree} →
    b.Canonical → b.isFlat = true → a.covers b = true → b.covers a = true → a.sameSets b = true
  | .null, _, _, b, _, _, h, _ => by simpa [covers, sameSets] using h
  | .bool _, _, _, b, _, _, h, _ => by simpa [covers, sameSets] using h
  | .number _, _, _, b, _, _, h, _ => by simpa [covers, sameSets] using h
  | .string _, _, _, b, _, _, h, _ => by simpa [covers, sameSets] using h
  | .array as, _, ha, b, _, hb, hforth, hback => by
      obtain ⟨bs, rfl, -⟩ := covers_array_iff.mp hforth
      exact sameSets_of_covers_items ha hb hforth hback
  | .object as, hca, ha, b, hcb, hb, hforth, hback => by
      obtain ⟨bs, rfl, -⟩ := covers_object_iff.mp hforth
      have hforths := (covers_object_iff_forall₂ hca.1 hcb.1).mp hforth
      have hbacks := (covers_object_iff_forall₂ hcb.1 hca.1).mp hback
      exact sameSetMembers_of_memberCovers as hca.2 ha hcb.2 hb hforths hbacks

theorem sameSetMembers_of_memberCovers : (as : List (String × Tree)) → MembersCanonical as →
    membersFlat as = true → {bs : List (String × Tree)} → MembersCanonical bs →
    membersFlat bs = true → List.Forall₂ MemberCovers as bs → List.Forall₂ MemberCovers bs as →
    sameSetMembers as bs = true
  | [], _, _, bs, _, _, hforth, _ => by
      cases hforth
      rfl
  | (name, a) :: as, hca, ha, bs, hcb, hb, hforth, hback => by
      cases hforth with
      | cons hforth hforths =>
          cases hback with
          | cons hback hbacks =>
              simp only [membersFlat, Bool.and_eq_true] at ha hb
              obtain ⟨hname, hcovers⟩ := hforth
              have hhead := sameSets_of_covers a hca.1 ha.1 hcb.1 hb.1 hcovers hback.2
              have hrest := sameSetMembers_of_memberCovers as hca.2 ha.2 hcb.2 hb.2 hforths hbacks
              simp only [sameSetMembers, Bool.and_eq_true, beq_iff_eq]
              exact ⟨⟨hname, hhead⟩, hrest⟩

end

theorem covers_both_iff_sameSets {a b : Tree} (hca : a.Canonical) (ha : a.isFlat = true)
    (hcb : b.Canonical) (hb : b.isFlat = true) :
    a.covers b = true ∧ b.covers a = true ↔ a.sameSets b = true := by
  constructor
  · rintro ⟨hforth, hback⟩
    exact sameSets_of_covers a hca ha hcb hb hforth hback
  · intro h
    exact covers_of_sameSets a hca hcb h

end Tree

def isFlat (v : Json) : Bool :=
  v.tree.isFlat

def sameSets (a b : Json) : Bool :=
  a.tree.sameSets b.tree

end Json

namespace Detail

def isFlat (d : Detail) : Bool :=
  (Json.object d.fields).isFlat

theorem covers_both_iff_sameSets {d e : Detail} (hd : d.isFlat = true) (he : e.isFlat = true) :
    d.covers e = true ∧ e.covers d = true ↔
      (Json.object d.fields).sameSets (.object e.fields) = true :=
  Json.Tree.covers_both_iff_sameSets d.fields.canonical hd e.fields.canonical he

-- The written forms differ from the fields in one member, and that holds the type.
theorem sameSets_toJson {d e : Detail} :
    d.toJson.sameSets e.toJson = true ↔
      d.type = e.type ∧ (Json.object d.fields).sameSets (.object e.fields) = true := by
  have hd : Named.find? typeName d.fields.members = none :=
    Json.Object.find?_eq_none_iff.mp d.untyped
  have he : Named.find? typeName e.fields.members = none :=
    Json.Object.find?_eq_none_iff.mp e.untyped
  change (Json.Tree.object (Named.insert typeName (.string d.type) d.fields.members)).sameSets
    (.object (Named.insert typeName (.string e.type) e.fields.members)) = true ↔ _ ∧
      (Json.Tree.object d.fields.members).sameSets (.object e.fields.members) = true
  simp only [Json.Tree.sameSets, Json.Tree.sameSetMembers_iff]
  rw [Named.forall₂_insert (fun a b => a.sameSets b = true) hd he]
  simp [Json.Tree.sameSets, Json.Tree.same]

end Detail

theorem covers_both_ways_iff_sameSets :
    (∀ a b : Json, a.isFlat = true → b.isFlat = true →
      (a.covers b = true ∧ b.covers a = true ↔ a.sameSets b = true)) ∧
    ∀ d e : Detail, d.isFlat = true → e.isFlat = true →
      (d.covers e = true ∧ e.covers d = true ↔
        (Json.object d.fields).sameSets (.object e.fields) = true) ∧
      (d.type = e.type ∧ d.covers e = true ∧ e.covers d = true ↔
        d.toJson.sameSets e.toJson = true) := by
  constructor
  · intro a b ha hb
    exact Json.Tree.covers_both_iff_sameSets a.canonical ha b.canonical hb
  · intro d e hd he
    have hfields := Detail.covers_both_iff_sameSets hd he
    exact ⟨hfields, (and_congr_right fun _ => hfields).trans Detail.sameSets_toJson.symm⟩

namespace Payments

-- Not so where arrays are nested: the pair covers its part, so the part may stand beside it or not.
example :
    let pair := Json.array [.int 1, .int 2]
    let nested := Json.array [pair, .array [.int 1]]
    nested.covers (.array [pair]) = true ∧ (Json.array [pair]).covers nested = true ∧
      nested.sameSets (.array [pair]) = false := by
  decide

def reordered : Detail :=
  transfer ["cancel", "initiate", "cancel"] ["DE02", "DE02"]

theorem reordered_covers_both_ways :
    (Json.array [.int 0, zero false]).isFlat = true ∧
      (Json.array [zero true, .int 0, zero false]).isFlat = true ∧
      (Json.array [.int 0, zero false]).covers (.array [zero true, .int 0, zero false]) = true ∧
      (transfer ["initiate", "cancel"] ["DE02"]).isFlat = true ∧ reordered.isFlat = true ∧
      (transfer ["initiate", "cancel"] ["DE02"]).covers reordered = true ∧
      reordered.covers (transfer ["initiate", "cancel"] ["DE02"]) = true := by
  have ha : (Json.array [.int 0, zero false]).isFlat = true := by decide
  have hb : (Json.array [zero true, .int 0, zero false]).isFlat = true := by decide
  have hd : (transfer ["initiate", "cancel"] ["DE02"]).isFlat = true := by decide +kernel
  have he : reordered.isFlat = true := by decide +kernel
  obtain ⟨hvalues, hdetails⟩ := covers_both_ways_iff_sameSets
  have hvalue := (hvalues _ _ ha hb).mpr (by decide)
  have hdetail := (hdetails _ _ hd he).1.mpr (by decide +kernel)
  exact ⟨ha, hb, hvalue.1, hd, he, hdetail⟩

end Payments

end RichAuthorization
