import RichAuthorization.Proofs.Selection

/-!
Coverage is a preorder, of values and of details.
-/

namespace RichAuthorization

namespace Json.Tree

-- The induction is on the covering value. Equal objects list equal members side by side, so the
-- lookups by name need no induction of their own.
mutual

theorem covers_of_same : (a : Tree) → a.Canonical → {b : Tree} → b.Canonical → a.same b = true →
    a.covers b = true
  | .null, _, b, _, h => by cases b <;> simp_all [same, covers]
  | .bool _, _, b, _, h => by cases b <;> simp_all [same, covers]
  | .number _, _, b, _, h => by cases b <;> simp_all [same, covers]
  | .string _, _, b, _, h => by cases b <;> simp_all [same, covers]
  | .array items, ha, b, hb, h => by
      cases b with
      | array others =>
          have hitems : sameItems items others = true := by simpa [same] using h
          exact covers_array_iff.mpr ⟨others, rfl, someCovers_of_sameItems items ha hb hitems⟩
      | _ => simp [same] at h
  | .object members, ha, b, hb, h => by
      cases b with
      | object others =>
          have hmembers : sameMembers members others = true := by simpa [same] using h
          have hpairs := forall₂_covers_of_sameMembers members ha.2 hb.2 hmembers
          exact (covers_object_iff_forall₂ ha.1 hb.1).mpr hpairs
      | _ => simp [same] at h

theorem someCovers_of_sameItems : (as : List Tree) → ItemsCanonical as → {bs : List Tree} →
    ItemsCanonical bs → sameItems as bs = true → ∀ b ∈ bs, someCovers as b = true
  | [], _, bs, _, h => by cases bs <;> simp_all [sameItems]
  | a :: as, ha, bs, hb, h => by
      cases bs with
      | nil => exact List.forall_mem_nil _
      | cons b bs =>
          simp only [sameItems, Bool.and_eq_true] at h
          have hhead := covers_of_same a ha.1 hb.1 h.1
          have hrest := someCovers_of_sameItems as ha.2 hb.2 h.2
          refine List.forall_mem_cons.mpr ⟨?_, fun b' hb' => ?_⟩
          · simp [someCovers, hhead]
          · simp [someCovers, hrest b' hb']

theorem forall₂_covers_of_sameMembers : (as : List (String × Tree)) → MembersCanonical as →
    {bs : List (String × Tree)} → MembersCanonical bs → sameMembers as bs = true →
    List.Forall₂ MemberCovers as bs
  | [], _, bs, _, h => by cases bs <;> simp_all [sameMembers]
  | (name, a) :: as, ha, bs, hb, h => by
      cases bs with
      | nil => simp [sameMembers] at h
      | cons b bs =>
          simp only [sameMembers, Bool.and_eq_true, beq_iff_eq] at h
          have hhead := covers_of_same a ha.1 hb.1 h.1.2
          exact .cons ⟨h.1.1, hhead⟩ (forall₂_covers_of_sameMembers as ha.2 hb.2 h.2)

end

theorem covers_refl {t : Tree} (h : t.Canonical) : t.covers t = true :=
  covers_of_same t h h (same_refl t)

end Json.Tree

theorem Json.covers_of_beq {a b : Json} (h : (a == b) = true) : a.covers b = true :=
  Json.Tree.covers_of_same a.tree a.canonical b.canonical (Json.beq_iff.mp h)

namespace Detail

theorem covers_of_beq {a b : Detail} (h : (a == b) = true) : a.covers b = true := by
  have hfields := Json.beq_object_iff.mpr (beq_iff.mp h).2
  exact Json.covers_of_beq hfields

theorem covers_refl (d : Detail) : d.covers d = true :=
  covers_of_beq BEq.rfl

end Detail

theorem covers_preorder :
    (∀ a : Json, a.covers a = true) ∧
    (∀ a b c : Json, a.covers b = true → b.covers c = true → a.covers c = true) ∧
    (∀ d : Detail, d.covers d = true) ∧
    ∀ a b c : Detail, a.covers b = true → b.covers c = true → a.covers c = true := by
  refine ⟨?_, ?_, Detail.covers_refl, ?_⟩
  · intro a
    exact Json.covers_of_beq BEq.rfl
  · intro a b c hab hbc
    exact Json.Tree.covers_trans a.tree hab hbc
  · intro a b c hab hbc
    exact Detail.covers_trans hab hbc

namespace Payments

def limitedTransfer (actions : List String) (negative : Bool) : Detail :=
  (transfer actions ["DE02"]).set "limit" (zero negative)

theorem limited_transfers_covers_preorder :
    (Json.array [.int 0, zero false]).covers (.array [zero true, zero false]) = true ∧
      (Json.array [zero true, zero false]).covers (.array [zero false]) = true ∧
      (Json.array [.int 0, zero false]).covers (.array [zero false]) = true ∧
      (limitedTransfer ["initiate", "cancel"] false).covers
        (limitedTransfer ["cancel", "initiate"] true) = true ∧
      (limitedTransfer ["cancel", "initiate"] true).covers
        (limitedTransfer ["cancel"] false) = true ∧
      (limitedTransfer ["initiate", "cancel"] false).covers
        (limitedTransfer ["cancel"] false) = true := by
  have hwide : (Json.array [.int 0, zero false]).covers (.array [zero true, zero false]) = true :=
    by decide
  have hnarrow : (Json.array [zero true, zero false]).covers (.array [zero false]) = true := by
    decide
  have hreordered : (limitedTransfer ["initiate", "cancel"] false).covers
      (limitedTransfer ["cancel", "initiate"] true) = true := by decide +kernel
  have hdropped : (limitedTransfer ["cancel", "initiate"] true).covers
      (limitedTransfer ["cancel"] false) = true := by decide +kernel
  obtain ⟨-, hvalues, -, hdetails⟩ := covers_preorder
  exact ⟨hwide, hnarrow, hvalues _ _ _ hwide hnarrow, hreordered, hdropped,
    hdetails _ _ _ hreordered hdropped⟩

end Payments

end RichAuthorization
