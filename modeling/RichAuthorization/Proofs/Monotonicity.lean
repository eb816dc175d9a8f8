import Mathlib.Data.Set.List
import RichAuthorization.Proofs.Failure
import RichAuthorization.Proofs.Narrowing
import RichAuthorization.Proofs.Preorder
import RichAuthorization.Proofs.WellFormedness

/-!
Granting more never confirms less.
-/

namespace RichAuthorization

namespace Json

theorem eq_strings_of_covers {texts : List String} {v : Json}
    (h : (strings texts).covers v = true) : ∃ texts', v = strings texts' := by
  obtain ⟨requested, htree, hcovers⟩ := Tree.covers_array_iff.mp h
  have htext : ∀ r ∈ requested, ∃ text, Tree.string text = r := by
    intro r hr
    obtain ⟨g, hg, hgr⟩ := Tree.someCovers_iff.mp (hcovers r hr)
    obtain ⟨item, hitem, rfl⟩ := List.mem_map.mp hg
    obtain ⟨text, -, rfl⟩ := List.mem_map.mp hitem
    exact ⟨text, (Tree.covers_string_iff.mp hgr).symm⟩
  obtain ⟨texts', rfl⟩ : requested ∈ Set.range (List.map Tree.string) := by
    rw [Set.range_list_map]
    exact htext
  refine ⟨texts', eq_iff_tree_eq.mpr ?_⟩
  simp [htree, strings, array, string]

end Json

namespace Detail

theorem exists_field?_of_covers {a b : Detail} (h : a.covers b = true) {name : String} {w : Json}
    (hw : b.field? name = some w) : ∃ v, a.field? name = some v ∧ v.covers w = true := by
  obtain ⟨r, hr, rfl⟩ := Option.map_eq_some_iff.mp hw
  have hpairs := (Json.Tree.covers_object_iff_forall₂ a.fields.canonical.1
    b.fields.canonical.1).mp h
  obtain ⟨g, hg, hcovers⟩ := Json.Tree.exists_find?_of_forall₂ hpairs hr
  have hgc := Json.Tree.membersCanonical_iff.mp a.fields.canonical.2 _ (Named.mem_of_find? hg)
  have hrc := Json.Tree.membersCanonical_iff.mp b.fields.canonical.2 _ (Named.mem_of_find? hr)
  refine ⟨Json.ofTree g, by simp [field?, Json.Object.find?, hg], ?_⟩
  rwa [Json.covers, Json.tree_ofTree hgc, Json.tree_ofTree hrc]

theorem WellFormed.of_covers {a b : Detail} (ha : a.WellFormed) (h : a.covers b = true) :
    b.WellFormed := by
  intro name hname w hw
  obtain ⟨v, hv, hcovers⟩ := exists_field?_of_covers h hw
  obtain ⟨texts, rfl⟩ := ha name hname v hv
  exact Json.eq_strings_of_covers hcovers

theorem misfit?_eq_none_of_covers {a b : Detail} (h : a.covers b = true) (ha : a.misfit? = none) :
    b.misfit? = none :=
  misfit?_eq_none_iff_wellFormed.mpr ((misfit?_eq_none_iff_wellFormed.mp ha).of_covers h)

end Detail

def DetailSet.Within (granted larger : DetailSet) : Prop :=
  ∀ g ∈ granted.toList, larger.contains g = true

theorem DetailSet.Within.exists_beq {granted larger : DetailSet} (h : granted.Within larger)
    {g : Detail} (hg : g ∈ granted.toList) : ∃ e ∈ larger.toList, (e == g) = true :=
  List.any_eq_true.mp (h g hg)

theorem DetailSet.Within.exists_type {granted larger : DetailSet} (h : granted.Within larger)
    {type : String} (hgranted : ∃ g ∈ granted.toList, g.type = type) :
    ∃ e ∈ larger.toList, e.type = type := by
  obtain ⟨g, hg, rfl⟩ := hgranted
  obtain ⟨e, he, heq⟩ := h.exists_beq hg
  exact ⟨e, he, (Detail.beq_iff.mp heq).1⟩

namespace TypeRule

variable {rule : TypeRule} {granted larger : DetailSet} {d : Detail}

theorem exists_judge_ofType_ok_of_within (hwithin : granted.Within larger)
    (h : ∃ answer, rule.judge d (larger.ofType d.type) = .ok answer) :
    ∃ answer, rule.judge d (granted.ofType d.type) = .ok answer := by
  rw [exists_judge_ofType_ok_iff] at h ⊢
  intro hrule hgranted
  obtain ⟨hd, hlarger⟩ := h hrule (hwithin.exists_type hgranted)
  refine ⟨hd, fun g hg htype => ?_⟩
  obtain ⟨e, he, heq⟩ := hwithin.exists_beq hg
  have hmisfit := hlarger e he ((Detail.beq_iff.mp heq).1.trans htype)
  exact Detail.misfit?_eq_none_of_covers (Detail.covers_of_beq heq) hmisfit

theorem judge_ofType_eq_true_of_within (hstrict : rule.subsetOfEmpty = false)
    (hwithin : granted.Within larger)
    (hok : ∃ answer, rule.judge d (larger.ofType d.type) = .ok answer)
    (h : rule.judge d (granted.ofType d.type) = .ok true) :
    rule.judge d (larger.ofType d.type) = .ok true := by
  rw [judge_ofType_eq_true_iff hstrict] at h ⊢
  obtain ⟨hgranted, hstructural⟩ := h
  have hsome := hwithin.exists_type hgranted
  refine ⟨hsome, fun hrule => ?_⟩
  -- that nothing in the larger grant is malformed is known only from the answer it gave
  obtain ⟨hd, hlarger⟩ := exists_judge_ofType_ok_iff.mp hok hrule hsome
  obtain ⟨-, -, g, hg, htype, hcovers⟩ := hstructural hrule
  obtain ⟨e, he, heq⟩ := hwithin.exists_beq hg
  have hcovered := Detail.covers_trans (Detail.covers_of_beq heq) hcovers
  exact ⟨hd, hlarger, e, he, (Detail.beq_iff.mp heq).1.trans htype, hcovered⟩

end TypeRule

namespace Validator

variable {v : Validator} {ctx : RequestContext} {granted larger : DetailSet} {d : Detail}

theorem not_failsOn_of_within (hstatic : v.registry.Static) (hwithin : granted.Within larger)
    (h : ¬ v.FailsOn ctx larger d) : ¬ v.FailsOn ctx granted d := by
  rw [failsOn_iff]
  rintro ⟨p, e, hp, hjudge⟩
  obtain ⟨rule, rfl⟩ := hstatic d.type p hp.registered
  obtain ⟨answer, hanswer⟩ := TypeRule.exists_judge_ofType_ok_of_within hwithin
    (exists_judge_ok_of_not_failsOn h hp)
  exact absurd (hjudge.symm.trans hanswer) (by simp)

theorem decides_validated_of_within (hstrict : v.registry.Strict)
    (hwithin : granted.Within larger) (h : ¬ v.FailsOn ctx larger d)
    (hd : v.Decides ctx granted d .validated) : v.Decides ctx larger d .validated := by
  cases hd with
  | validated hp hjudge =>
      obtain ⟨rule, rfl, hrule⟩ := hstrict d.type _ hp.registered
      have hanswers := exists_judge_ok_of_not_failsOn h hp
      exact .validated hp (TypeRule.judge_ofType_eq_true_of_within hrule hwithin hanswers hjudge)

theorem granting_more_confirms_no_less (hstrict : v.registry.Strict) {requested : DetailSet}
    (hwithin : ∀ g ∈ granted.toList, larger.contains g = true) {o' : Outcome}
    (h' : (v.validate ctx requested larger).value = .ok o') :
    ∃ o, (v.validate ctx requested granted).value = .ok o ∧
      o.validated.toList.Sublist o'.validated.toList := by
  have hanswers := exists_validate_ok_iff.mp ⟨o', h'⟩
  obtain ⟨o, h⟩ := exists_validate_ok_iff.mpr fun d hd =>
    not_failsOn_of_within hstrict.static hwithin (hanswers d hd)
  refine ⟨o, h, validated_sublist_validated h h' fun d hd => ?_⟩
  exact decides_validated_of_within hstrict hwithin (hanswers d hd)

end Validator

namespace Payments

def transferGranted : DetailSet :=
  .ofList [limitedTransfer ["initiate", "cancel"] true]

def moreGranted : DetailSet :=
  .ofList [detail ["status"], account, limitedTransfer ["initiate", "cancel"] false]

def transferRequested : DetailSet :=
  .ofList [consent, limitedTransfer ["cancel"] false, detail ["status"]]

def moreOutcome : Outcome :=
  ⟨[(consent, .rejected .unsupportedType), (limitedTransfer ["cancel"] false, .validated),
    (detail ["status"], .validated)]⟩

theorem more_granted_confirms_transfer :
    registry.Strict ∧ (∀ g ∈ transferGranted.toList, moreGranted.contains g = true) ∧
      (validator.validate .default transferRequested moreGranted).value = .ok moreOutcome ∧
      ∃ o, (validator.validate .default transferRequested transferGranted).value = .ok o ∧
        o.validated.toList.Sublist moreOutcome.validated.toList := by
  have hwithin : ∀ g ∈ transferGranted.toList, moreGranted.contains g = true := by
    decide +kernel
  have hrun : (validator.validate .default transferRequested moreGranted).value =
      .ok moreOutcome := rfl
  exact ⟨strict_registry, hwithin, hrun,
    Validator.granting_more_confirms_no_less strict_registry hwithin hrun⟩

end Payments

end RichAuthorization
