import Mathlib.Data.List.Forall2
import RichAuthorization.Coverage
import RichAuthorization.Proofs.Named

/-!
Coverage value by value: what each kind of value covers.
-/

namespace RichAuthorization

namespace Json.Tree

theorem covers_null_iff {t : Tree} : Tree.null.covers t = true ↔ t = .null := by
  cases t <;> simp [covers, same]

theorem covers_bool_iff {b : Bool} {t : Tree} :
    (Tree.bool b).covers t = true ↔ t = .bool b := by
  cases t <;> simp [covers, same, eq_comm (a := b)]

theorem covers_number_iff {n : Number} {t : Tree} :
    (Tree.number n).covers t = true ↔ ∃ m, t = .number m ∧ n.same m = true := by
  cases t <;> simp [covers, same]

theorem covers_string_iff {s : String} {t : Tree} :
    (Tree.string s).covers t = true ↔ t = .string s := by
  cases t <;> simp [covers, same, eq_comm (a := s)]

theorem covers_array_iff {granted : List Tree} {t : Tree} :
    (Tree.array granted).covers t = true ↔
      ∃ requested, t = .array requested ∧ ∀ r ∈ requested, someCovers granted r = true := by
  cases t <;> simp [covers, same]

theorem covers_object_iff {granted : List (String × Tree)} {t : Tree} :
    (Tree.object granted).covers t = true ↔
      ∃ requested, t = .object requested ∧ granted.length = requested.length ∧
        membersCover granted requested = true := by
  cases t <;> simp [covers, same]

def MemberCovers (granted requested : String × Tree) : Prop :=
  granted.1 = requested.1 ∧ granted.2.covers requested.2 = true

theorem forall₂_of_covered_by_name {granted requested all : List (String × Tree)}
    (hall : Named.Sorted all) (hsubset : requested ⊆ all)
    (hnames : granted.map Prod.fst = requested.map Prod.fst)
    (h : ∀ g ∈ granted, ∃ r, Named.find? g.1 all = some r ∧ g.2.covers r = true) :
    List.Forall₂ MemberCovers granted requested := by
  induction granted generalizing requested with
  | nil =>
      rw [List.map_eq_nil_iff.mp hnames.symm]
      exact .nil
  | cons g rest ih =>
      obtain ⟨r, later, rfl, hname, hlater⟩ := List.map_eq_cons_iff.mp hnames.symm
      obtain ⟨⟨found, hfound, hcovers⟩, hrest⟩ := List.forall_mem_cons.mp h
      have hr : Named.find? r.1 all = some r.2 := hall.find?_of_mem (hsubset List.mem_cons_self)
      rw [← hname, hr, Option.some.injEq] at hfound
      subst hfound
      have htail := ih (fun m hm => hsubset (List.mem_cons_of_mem _ hm)) hlater.symm hrest
      exact .cons ⟨hname.symm, hcovers⟩ htail

theorem covered_by_name_of_forall₂ {granted requested all : List (String × Tree)}
    (hall : Named.Sorted all) (hsubset : requested ⊆ all)
    (h : List.Forall₂ MemberCovers granted requested) :
    ∀ g ∈ granted, ∃ r, Named.find? g.1 all = some r ∧ g.2.covers r = true := by
  induction h with
  | nil => exact List.forall_mem_nil _
  | @cons g r _ _ hhead _ ih =>
      obtain ⟨hname, hcovers⟩ := hhead
      have hr : Named.find? r.1 all = some r.2 := hall.find?_of_mem (hsubset List.mem_cons_self)
      have hrest := ih fun m hm => hsubset (List.mem_cons_of_mem _ hm)
      exact List.forall_mem_cons.mpr ⟨⟨r.2, hname ▸ hr, hcovers⟩, hrest⟩

theorem exists_find?_of_forall₂ {granted requested : List (String × Tree)}
    (h : List.Forall₂ MemberCovers granted requested) {name : String} {r : Tree}
    (hr : Named.find? name requested = some r) :
    ∃ g, Named.find? name granted = some g ∧ g.covers r = true := by
  induction h with
  | nil => cases hr
  | cons hhead _ ih =>
      obtain ⟨hname, hcovers⟩ := hhead
      simp only [Named.find?, hname] at hr ⊢
      split at hr
      · next heq =>
        cases hr
        exact ⟨_, if_pos heq, hcovers⟩
      · next hne =>
        rw [if_neg hne]
        exact ih hr

theorem covers_object_iff_forall₂ {granted requested : List (String × Tree)}
    (hgranted : Named.Sorted granted) (hrequested : Named.Sorted requested) :
    (Tree.object granted).covers (.object requested) = true ↔
      List.Forall₂ MemberCovers granted requested := by
  simp only [covers, Bool.and_eq_true, beq_iff_eq, membersCover_iff]
  constructor
  · rintro ⟨hlen, hcovered⟩
    have hnames := hgranted.names_eq hrequested hlen fun g hg =>
      (hcovered g hg).imp fun _ hr => hr.1
    exact forall₂_of_covered_by_name hrequested (List.Subset.refl _) hnames hcovered
  · intro h
    exact ⟨h.length_eq, covered_by_name_of_forall₂ hrequested (List.Subset.refl _) h⟩

-- The induction is on the covering value; the value in the middle only supplies witnesses.
mutual

theorem covers_trans : (a : Tree) → {b c : Tree} → a.covers b = true → b.covers c = true →
    a.covers c = true
  | .null, b, c, hab, hbc => by
      rw [covers_null_iff.mp hab] at hbc
      exact hbc
  | .bool _, b, c, hab, hbc => by
      rw [covers_bool_iff.mp hab] at hbc
      exact hbc
  | .number n, b, c, hab, hbc => by
      obtain ⟨m, rfl, hnm⟩ := covers_number_iff.mp hab
      obtain ⟨k, rfl, hmk⟩ := covers_number_iff.mp hbc
      exact covers_number_iff.mpr ⟨k, rfl, Number.same_trans hnm hmk⟩
  | .string _, b, c, hab, hbc => by
      rw [covers_string_iff.mp hab] at hbc
      exact hbc
  | .array granted, b, c, hab, hbc => by
      obtain ⟨middle, rfl, hgranted⟩ := covers_array_iff.mp hab
      obtain ⟨requested, rfl, hmiddle⟩ := covers_array_iff.mp hbc
      refine covers_array_iff.mpr ⟨requested, rfl, ?_⟩
      intro r hr
      obtain ⟨m, hm, hmr⟩ := someCovers_iff.mp (hmiddle r hr)
      exact someCovers_trans granted (hgranted m hm) hmr
  | .object granted, b, c, hab, hbc => by
      obtain ⟨middle, rfl, hlen, hgranted⟩ := covers_object_iff.mp hab
      obtain ⟨requested, rfl, hlen', hmiddle⟩ := covers_object_iff.mp hbc
      exact covers_object_iff.mpr
        ⟨requested, rfl, hlen.trans hlen', membersCover_trans granted hgranted hmiddle⟩

theorem someCovers_trans : (granted : List Tree) → {b c : Tree} → someCovers granted b = true →
    b.covers c = true → someCovers granted c = true
  | [], b, c, hab, _ => by simp [someCovers] at hab
  | a :: rest, b, c, hab, hbc => by
      simp only [someCovers, Bool.or_eq_true] at hab ⊢
      rcases hab with hab | hab
      · exact .inl (covers_trans a hab hbc)
      · exact .inr (someCovers_trans rest hab hbc)

theorem membersCover_trans : (granted : List (String × Tree)) →
    {middle requested : List (String × Tree)} → membersCover granted middle = true →
    membersCover middle requested = true → membersCover granted requested = true
  | [], _, _, _, _ => by simp [membersCover]
  | (name, a) :: rest, middle, requested, hab, hbc => by
      obtain ⟨⟨b, hb, hcovers⟩, hrest⟩ := List.forall_mem_cons.mp (membersCover_iff.mp hab)
      obtain ⟨c, hc, hcovers'⟩ := membersCover_iff.mp hbc (name, b) (Named.mem_of_find? hb)
      have htail := membersCover_trans rest (membersCover_iff.mpr hrest) hbc
      have hhead : a.covers c = true := covers_trans a hcovers hcovers'
      simp [membersCover, hc, hhead, htail]

end

end Json.Tree

theorem Detail.covers_trans {a b c : Detail} (hab : a.covers b = true) (hbc : b.covers c = true) :
    a.covers c = true := by
  change (Json.Tree.object a.fields.members).covers (.object b.fields.members) = true at hab
  change (Json.Tree.object b.fields.members).covers (.object c.fields.members) = true at hbc
  exact Json.Tree.covers_trans _ hab hbc

end RichAuthorization
