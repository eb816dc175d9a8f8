import RichAuthorization.Proofs.Coverage
import RichAuthorization.Proofs.StaticRule
import RichAuthorization.Proofs.Validation

/-!
Narrowing in steps: what is validated against an already narrowed grant is validated against the
grant itself.
-/

namespace RichAuthorization

theorem TypeRule.judge_ofType_trans {rule : TypeRule} (hstrict : rule.subsetOfEmpty = false)
    {granted middle : DetailSet} {d : Detail}
    (hmiddle : ∀ m ∈ middle.toList, m.type = d.type →
      rule.judge m (granted.ofType m.type) = .ok true)
    (h : rule.judge d (middle.ofType d.type) = .ok true) :
    rule.judge d (granted.ofType d.type) = .ok true := by
  rw [judge_ofType_eq_true_iff hstrict] at h ⊢
  obtain ⟨⟨m, hm, hmtype⟩, hstructural⟩ := h
  have hjudge (m : Detail) (hm : m ∈ middle.toList) (hmtype : m.type = d.type) :=
    (judge_ofType_eq_true_iff hstrict).mp (hmiddle m hm hmtype)
  constructor
  · obtain ⟨⟨g, hg, hgtype⟩, -⟩ := hjudge m hm hmtype
    exact ⟨g, hg, hgtype.trans hmtype⟩
  · intro hrule
    obtain ⟨hd, -, c, hc, hctype, hcovers⟩ := hstructural hrule
    -- the details that the grant holds of this type were all inspected when `c` was validated
    obtain ⟨-, hgranted, g, hg, hgtype, hgcovers⟩ := (hjudge c hc hctype).2 hrule
    rw [hctype] at hgranted hgtype
    exact ⟨hd, hgranted, g, hg, hgtype, Detail.covers_trans hgcovers hcovers⟩

namespace Validator

variable {v : Validator} {ctx : RequestContext} {granted : DetailSet}

theorem validate_singleton {d : Detail} {p : Processor} (hp : v.SupportedBy ctx d.type p)
    (h : p.judge d (granted.ofType d.type) = .ok true) :
    (v.validate ctx (.ofList [d]) granted).value = .ok ⟨[(d, .validated)]⟩ := by
  have hlist : (DetailSet.ofList [d]).toList = [d] :=
    DetailSet.toList_ofList_of_distinct (List.pairwise_singleton _ d)
  refine validate_value_eq_ok_iff.mpr ⟨by simp [Outcome.details, hlist], ?_⟩
  intro entry hentry
  rw [List.mem_singleton.mp hentry]
  exact .validated hp h

theorem validate_narrowed (hstrict : v.registry.Strict) {requested later : DetailSet}
    {first second : Outcome} (hfirst : (v.validate ctx requested granted).value = .ok first)
    (hsecond : (v.validate ctx later first.validated).value = .ok second) :
    ∀ d ∈ second.validated.toList, ∃ direct,
      (v.validate ctx (.ofList [d]) granted).value = .ok direct ∧ d ∈ direct.validated.toList := by
  intro d hd
  obtain ⟨-, p, hp, hjudge⟩ := (mem_validated_iff hsecond).mp hd
  obtain ⟨rule, rfl, hrule⟩ := hstrict d.type p hp.registered
  have hmiddle : ∀ m ∈ first.validated.toList, m.type = d.type →
      rule.judge m (granted.ofType m.type) = .ok true := by
    intro m hm hmtype
    obtain ⟨-, q, hq, hanswer⟩ := (mem_validated_iff hfirst).mp hm
    rw [hmtype] at hq
    rwa [hq.unique hp] at hanswer
  have hdirect := validate_singleton hp (TypeRule.judge_ofType_trans hrule hmiddle hjudge)
  refine ⟨_, hdirect, (Outcome.mem_validated (distinct_details hdirect)).mpr ?_⟩
  exact List.mem_singleton_self _

end Validator

namespace Payments

theorem strict_registry : registry.Strict :=
  (Registry.strict_empty.insert rfl _).insert rfl _

def narrowedOnce : DetailSet :=
  .ofList [detail ["cancel"], detail ["initiate", "initiate"]]

def narrowedTwice : DetailSet :=
  .ofList [detail ["initiate"], detail ["cancel", "initiate"]]

def firstOutcome : Outcome :=
  ⟨[(detail ["cancel"], .validated), (detail ["initiate", "initiate"], .validated)]⟩

def secondOutcome : Outcome :=
  ⟨[(detail ["initiate"], .validated),
    (detail ["cancel", "initiate"], .rejected .notGranted)]⟩

theorem validate_narrowed_twice :
    registry.Strict ∧
      (validator.validate .default narrowedOnce granted).value = .ok firstOutcome ∧
      (validator.validate .default narrowedTwice firstOutcome.validated).value =
        .ok secondOutcome ∧
      detail ["initiate"] ∈ secondOutcome.validated.toList ∧
      ∃ direct, (validator.validate .default (.ofList [detail ["initiate"]]) granted).value =
        .ok direct ∧ detail ["initiate"] ∈ direct.validated.toList := by
  have hfirst : (validator.validate .default narrowedOnce granted).value = .ok firstOutcome := rfl
  have hsecond : (validator.validate .default narrowedTwice firstOutcome.validated).value =
      .ok secondOutcome := rfl
  have hmem : detail ["initiate"] ∈ secondOutcome.validated.toList := List.mem_singleton_self _
  exact ⟨strict_registry, hfirst, hsecond, hmem,
    Validator.validate_narrowed strict_registry hfirst hsecond _ hmem⟩

end Payments

end RichAuthorization
