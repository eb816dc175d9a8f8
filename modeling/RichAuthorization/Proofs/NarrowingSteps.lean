import Mathlib.Logic.Relation
import RichAuthorization.Proofs.Preorder

/-!
What coverage allows, step by step.
-/

namespace RichAuthorization

open Relation (ReflTransGen)

namespace Json

namespace Tree

inductive NarrowingStep : Tree → Tree → Prop
  | drop (before : List Tree) (item : Tree) (after : List Tree) :
      NarrowingStep (.array (before ++ item :: after)) (.array (before ++ after))
  | duplicate (before : List Tree) (item : Tree) (after : List Tree) :
      NarrowingStep (.array (before ++ item :: after)) (.array (before ++ item :: item :: after))
  | reorder {items others : List Tree} : items.Perm others →
      NarrowingStep (.array items) (.array others)
  | number {m n : Number} : m.same n = true → NarrowingStep (.number m) (.number n)
  | inArray (before after : List Tree) {t t' : Tree} : NarrowingStep t t' →
      NarrowingStep (.array (before ++ t :: after)) (.array (before ++ t' :: after))
  | inObject (before after : List (String × Tree)) (name : String) {t t' : Tree} :
      NarrowingStep t t' →
      NarrowingStep (.object (before ++ (name, t) :: after)) (.object (before ++ (name, t') :: after))

mutual

/-- What is left of a value when the arrays in it are emptied. -/
def outline : Tree → Tree
  | .array _ => .array []
  | .object members => .object (outlineMembers members)
  | t => t

def outlineMembers : List (String × Tree) → List (String × Tree)
  | [] => []
  | (name, t) :: rest => (name, t.outline) :: outlineMembers rest

end

theorem outlineMembers_append (members others : List (String × Tree)) :
    outlineMembers (members ++ others) = outlineMembers members ++ outlineMembers others := by
  induction members with
  | nil => rfl
  | cons member rest ih => simp [outlineMembers, ih]

theorem sameMembers_append (before : List (String × Tree)) {as bs : List (String × Tree)}
    (h : sameMembers as bs = true) : sameMembers (before ++ as) (before ++ bs) = true := by
  induction before with
  | nil => exact h
  | cons member rest ih => simp [sameMembers, same_refl, ih]

theorem NarrowingStep.outline_same {a b : Tree} (h : NarrowingStep a b) :
    a.outline.same b.outline = true := by
  induction h with
  | drop | duplicate | reorder | inArray => exact same_refl _
  | number hsame => simpa [outline, same] using hsame
  | inObject before after name _ ih =>
      simp only [outline, outlineMembers_append, same]
      apply sameMembers_append
      simp [outlineMembers, sameMembers, ih, sameMembers_refl]

theorem NarrowingStep.canonical {a b : Tree} (h : NarrowingStep a b) (ha : a.Canonical) :
    b.Canonical := by
  have hsubset {items others : List Tree} (hitems : (Tree.array items).Canonical)
      (h : others ⊆ items) : (Tree.array others).Canonical :=
    itemsCanonical_iff.mpr fun t ht => itemsCanonical_iff.mp hitems t (h ht)
  induction h with
  | drop before item after => exact hsubset ha (by simp)
  | duplicate before item after => exact hsubset ha (by simp)
  | reorder hperm => exact hsubset ha hperm.symm.subset
  | number => trivial
  | inArray before after _ ih =>
      have hitems := itemsCanonical_iff.mp ha
      refine itemsCanonical_iff.mpr ?_
      simp only [List.forall_mem_append, List.forall_mem_cons] at hitems ⊢
      exact ⟨hitems.1, ih hitems.2.1, hitems.2.2⟩
  | inObject before after name _ ih =>
      have hmembers := membersCanonical_iff.mp ha.2
      refine ⟨ha.1.of_names_eq (by simp), membersCanonical_iff.mpr ?_⟩
      simp only [List.forall_mem_append, List.forall_mem_cons] at hmembers ⊢
      exact ⟨hmembers.1, ih hmembers.2.1, hmembers.2.2⟩

theorem covers_array_of_subset {items others : List Tree} (hitems : (Tree.array items).Canonical)
    (h : others ⊆ items) : (Tree.array items).covers (.array others) = true := by
  refine covers_array_iff.mpr ⟨others, rfl, fun r hr => ?_⟩
  have hcanonical := itemsCanonical_iff.mp hitems r (h hr)
  exact someCovers_iff.mpr ⟨r, h hr, covers_refl hcanonical⟩

theorem forall₂_memberCovers_refl {members : List (String × Tree)}
    (h : ∀ member ∈ members, member.2.Canonical) : List.Forall₂ MemberCovers members members :=
  List.forall₂_same.mpr fun member hmember => ⟨rfl, covers_refl (h member hmember)⟩

theorem NarrowingStep.covers {a b : Tree} (h : NarrowingStep a b) (ha : a.Canonical) :
    a.covers b = true := by
  induction h with
  | drop before item after => exact covers_array_of_subset ha (by simp)
  | duplicate before item after => exact covers_array_of_subset ha (by simp)
  | reorder hperm => exact covers_array_of_subset ha hperm.symm.subset
  | number hsame => exact covers_number_iff.mpr ⟨_, rfl, hsame⟩
  | @inArray before after t t' hstep ih =>
      have hitems := itemsCanonical_iff.mp ha
      have hself : ∀ r ∈ before ++ t :: after, someCovers (before ++ t :: after) r = true :=
        fun r hr => someCovers_iff.mpr ⟨r, hr, covers_refl (hitems r hr)⟩
      have hchanged : someCovers (before ++ t :: after) t' = true :=
        someCovers_iff.mpr ⟨t, by simp, ih (hitems t (by simp))⟩
      refine covers_array_iff.mpr ⟨_, rfl, ?_⟩
      simp only [List.forall_mem_append, List.forall_mem_cons] at hself ⊢
      exact ⟨hself.1, hchanged, hself.2.2⟩
  | @inObject before after name t t' hstep ih =>
      have hb := (hstep.inObject before after name).canonical ha
      have hmembers := membersCanonical_iff.mp ha.2
      simp only [List.forall_mem_append, List.forall_mem_cons] at hmembers
      obtain ⟨hbefore, ht, hafter⟩ := hmembers
      have hchanged : List.Forall₂ MemberCovers ((name, t) :: after) ((name, t') :: after) :=
        .cons ⟨rfl, ih ht⟩ (forall₂_memberCovers_refl hafter)
      have hpairs := List.rel_append (forall₂_memberCovers_refl hbefore) hchanged
      exact (covers_object_iff_forall₂ ha.1 hb.1).mpr hpairs

-- A run of steps for each entry of a list, one entry after the other.
theorem reflTransGen_of_forall₂ {α : Type} {R : α → α → Prop} {P : List α → List α → Prop}
    (hP : ∀ before after {a b}, R a b → P (before ++ a :: after) (before ++ b :: after))
    {as bs : List α} (h : List.Forall₂ (ReflTransGen R) as bs) (before : List α) :
    ReflTransGen P (before ++ as) (before ++ bs) := by
  induction h generalizing before with
  | nil => exact .refl
  | @cons a b as bs hhead _ ih =>
      have hfirst : ReflTransGen P (before ++ a :: as) (before ++ b :: as) :=
        hhead.lift (fun t => before ++ t :: as) fun _ _ hab => hP before as hab
      have hrest := ih (before ++ [b])
      simp only [List.append_assoc, List.singleton_append] at hrest
      exact hfirst.trans hrest

theorem steps_array_of_forall₂ {items others : List Tree}
    (h : List.Forall₂ (ReflTransGen NarrowingStep) items others) :
    ReflTransGen NarrowingStep (.array items) (.array others) := by
  have hlist := reflTransGen_of_forall₂
    (P := fun items others => NarrowingStep (.array items) (.array others))
    (fun before after _ _ hstep => .inArray before after hstep) h []
  exact hlist.lift Tree.array fun _ _ hstep => hstep

theorem steps_array_prepend {items others : List Tree} (h : others ⊆ items) :
    ReflTransGen NarrowingStep (.array items) (.array (others ++ items)) := by
  induction others with
  | nil => exact .refl
  | cons item rest ih =>
      obtain ⟨hitem, hrest⟩ := List.cons_subset.mp h
      obtain ⟨before, after, rfl⟩ := List.append_of_mem hitem
      have hrepeated := NarrowingStep.duplicate (rest ++ before) item after
      have hmoved : ((rest ++ before) ++ item :: item :: after).Perm
          (item :: ((rest ++ before) ++ item :: after)) := List.perm_middle
      simp only [List.append_assoc] at hrepeated hmoved
      exact ((ih hrest).tail hrepeated).tail (.reorder hmoved)

theorem steps_array_drop (items others : List Tree) :
    ReflTransGen NarrowingStep (.array (others ++ items)) (.array others) := by
  induction items with
  | nil => simpa using ReflTransGen.refl
  | cons item rest ih => exact .head (.drop others item rest) ih

theorem steps_array_of_subset {items others : List Tree} (h : others ⊆ items) :
    ReflTransGen NarrowingStep (.array items) (.array others) :=
  (steps_array_prepend h).trans (steps_array_drop items others)

theorem steps_object_of_forall₂ {members others : List (String × Tree)}
    (h : List.Forall₂ (fun a b => a.1 = b.1 ∧ ReflTransGen NarrowingStep a.2 b.2) members others) :
    ReflTransGen NarrowingStep (.object members) (.object others) := by
  have hmembers : List.Forall₂
      (ReflTransGen fun a b : String × Tree => a.1 = b.1 ∧ NarrowingStep a.2 b.2) members others :=
    h.imp fun ⟨name, _⟩ ⟨_, _⟩ ⟨hname, hsteps⟩ => by
      subst hname
      exact hsteps.lift (fun t => (name, t)) fun _ _ hstep => ⟨rfl, hstep⟩
  have hlist := reflTransGen_of_forall₂
    (P := fun members others => NarrowingStep (.object members) (.object others))
    (fun before after ⟨name, _⟩ ⟨_, _⟩ ⟨hname, hstep⟩ => by
      subst hname
      exact .inObject before after name hstep) hmembers []
  exact hlist.lift Tree.object fun _ _ hstep => hstep

theorem exists_subset_forall₂ {α β : Type} {R : α → β → Prop} {sources : List α} {targets : List β}
    (h : ∀ b ∈ targets, ∃ a ∈ sources, R a b) : ∃ chosen ⊆ sources, List.Forall₂ R chosen targets := by
  induction targets with
  | nil => exact ⟨[], by simp, .nil⟩
  | cons b rest ih =>
      obtain ⟨⟨a, ha, hab⟩, hrest⟩ := List.forall_mem_cons.mp h
      obtain ⟨chosen, hsubset, hchosen⟩ := ih hrest
      exact ⟨a :: chosen, List.cons_subset.mpr ⟨ha, hsubset⟩, .cons hab hchosen⟩

-- The induction is on the covering value. An array first gets the items that cover those of the other
-- array, in their order, and then each of them is narrowed in its place.
mutual

theorem steps_of_covers : (g : Tree) → g.Canonical → {r : Tree} → r.Canonical →
    g.covers r = true → ReflTransGen NarrowingStep g r
  | .null, _, r, _, h => covers_null_iff.mp h ▸ .refl
  | .bool _, _, r, _, h => covers_bool_iff.mp h ▸ .refl
  | .number _, _, r, _, h => by
      obtain ⟨m, rfl, hsame⟩ := covers_number_iff.mp h
      exact .single (.number hsame)
  | .string _, _, r, _, h => covers_string_iff.mp h ▸ .refl
  | .array granted, hg, r, hr, h => by
      obtain ⟨requested, rfl, hcovers⟩ := covers_array_iff.mp h
      have hsteps : ∀ r ∈ requested, ∃ g ∈ granted, ReflTransGen NarrowingStep g r :=
        fun r hmem => exists_steps_of_someCovers granted hg (itemsCanonical_iff.mp hr r hmem)
          (hcovers r hmem)
      obtain ⟨chosen, hsubset, hchosen⟩ := exists_subset_forall₂ hsteps
      exact (steps_array_of_subset hsubset).trans (steps_array_of_forall₂ hchosen)
  | .object granted, hg, r, hr, h => by
      obtain ⟨requested, rfl, -, -⟩ := covers_object_iff.mp h
      have hpairs := (covers_object_iff_forall₂ hg.1 hr.1).mp h
      exact steps_object_of_forall₂ (forall₂_steps_of_memberCovers granted hg.2 hr.2 hpairs)

theorem exists_steps_of_someCovers : (granted : List Tree) → ItemsCanonical granted →
    {r : Tree} → r.Canonical → someCovers granted r = true →
    ∃ g ∈ granted, ReflTransGen NarrowingStep g r
  | [], _, r, _, h => by simp [someCovers] at h
  | g :: rest, hg, r, hr, h => by
      simp only [someCovers, Bool.or_eq_true] at h
      rcases h with h | h
      · exact ⟨g, List.mem_cons_self, steps_of_covers g hg.1 hr h⟩
      · obtain ⟨g', hmem, hsteps⟩ := exists_steps_of_someCovers rest hg.2 hr h
        exact ⟨g', List.mem_cons_of_mem _ hmem, hsteps⟩

theorem forall₂_steps_of_memberCovers : (granted : List (String × Tree)) →
    MembersCanonical granted → {requested : List (String × Tree)} → MembersCanonical requested →
    List.Forall₂ MemberCovers granted requested →
    List.Forall₂ (fun a b => a.1 = b.1 ∧ ReflTransGen NarrowingStep a.2 b.2) granted requested
  | [], _, requested, _, h => by
      cases h
      exact .nil
  | (name, g) :: rest, hg, requested, hr, h => by
      obtain ⟨⟨name', r⟩, later, ⟨hname, hcovers⟩, hrest, rfl⟩ := List.forall₂_cons_left_iff.mp h
      have hsteps := steps_of_covers g hg.1 hr.1 hcovers
      exact .cons ⟨hname, hsteps⟩ (forall₂_steps_of_memberCovers rest hg.2 hr.2 hrest)

end

end Tree

def NarrowingStep (a b : Json) : Prop :=
  a.tree.NarrowingStep b.tree

def Narrows : Json → Json → Prop :=
  ReflTransGen NarrowingStep

theorem narrows_of_steps {g : Json} {t : Tree} (h : ReflTransGen Tree.NarrowingStep g.tree t) :
    ∃ canonical : t.Canonical, g.Narrows ⟨t, canonical⟩ := by
  induction h with
  | refl => exact ⟨g.canonical, .refl⟩
  | tail _ hstep ih =>
      obtain ⟨canonical, hnarrows⟩ := ih
      exact ⟨hstep.canonical canonical, hnarrows.tail hstep⟩

theorem Narrows.covers {g r : Json} (h : g.Narrows r) : g.covers r = true := by
  induction h with
  | refl => exact covers_of_beq BEq.rfl
  | @tail b c _ hstep ih => exact Tree.covers_trans g.tree ih (hstep.covers b.canonical)

theorem narrows_of_covers {g r : Json} (h : g.covers r = true) : g.Narrows r := by
  obtain ⟨canonical, hnarrows⟩ :=
    narrows_of_steps (Tree.steps_of_covers g.tree g.canonical r.canonical h)
  exact hnarrows

theorem covers_iff_narrows :
    (∀ g r : Json, g.covers r = true ↔ g.Narrows r) ∧
    ∀ a b : Json, a.NarrowingStep b → a.tree.outline.same b.tree.outline = true := by
  constructor
  · intro g r
    exact ⟨narrows_of_covers, Narrows.covers⟩
  · intro a b h
    exact h.outline_same

end Json

namespace Payments

theorem limited_transfer_narrows :
    (Json.object (limitedTransfer ["initiate", "cancel"] false).fields).Narrows
        (.object (limitedTransfer ["cancel", "initiate", "cancel"] true).fields) ∧
      ¬ (Json.object (transfer ["cancel"] ["DE02"]).fields).Narrows
        (.object (detail ["cancel"]).fields) ∧
      (Json.strings ["initiate", "cancel"]).NarrowingStep (.strings ["initiate"]) ∧
      (Json.strings ["initiate", "cancel"]).tree.outline.same
        (Json.strings ["initiate"]).tree.outline = true := by
  obtain ⟨hnarrows, houtline⟩ := Json.covers_iff_narrows
  have hcovers : (Json.object (limitedTransfer ["initiate", "cancel"] false).fields).covers
      (.object (limitedTransfer ["cancel", "initiate", "cancel"] true).fields) = true := by
    decide +kernel
  have hbare : ¬ (Json.object (transfer ["cancel"] ["DE02"]).fields).covers
      (.object (detail ["cancel"]).fields) = true := by decide +kernel
  have hstep : (Json.strings ["initiate", "cancel"]).NarrowingStep (.strings ["initiate"]) :=
    .drop [.string "initiate"] (.string "cancel") []
  exact ⟨(hnarrows _ _).mp hcovers, fun h => hbare ((hnarrows _ _).mpr h), hstep,
    houtline _ _ hstep⟩

end Payments

end RichAuthorization
