import RichAuthorization.Proofs.EmptyGrant
import RichAuthorization.Proofs.Enrichment
import RichAuthorization.Proofs.Failure
import RichAuthorization.Proofs.Preorder

/-!
Details that are validated against themselves: a grant confirms all of itself that is supported.
-/

namespace RichAuthorization

theorem TypeRule.judge_ofType_eq_ok_iff_of_mem {rule : TypeRule} {granted : DetailSet} {d : Detail}
    (hd : d ∈ granted.toList) {answer : Bool} :
    rule.judge d (granted.ofType d.type) = .ok answer ↔
      answer = true ∧ (rule.matching = .structural →
        ∀ g ∈ granted.toList, g.type = d.type → g.misfit? = none) := by
  have hempty : (granted.ofType d.type).isEmpty = false :=
    DetailSet.isEmpty_ofType_eq_false_iff.mpr ⟨d, hd, rfl⟩
  cases hrule : rule.matching with
  | typeOnly =>
      rw [judge_ofType_typeOnly hrule hempty]
      simp [eq_comm]
  | structural =>
      have hcovered : ((granted.ofType d.type).toList.any fun g => g.covers d) = true :=
        List.any_eq_true.mpr ⟨d, DetailSet.mem_ofType.mpr ⟨hd, rfl⟩, d.covers_refl⟩
      rw [judge_structural_eq_ok_iff hrule hempty, hcovered]
      simp only [DetailSet.mem_ofType, true_implies]
      constructor
      · rintro ⟨-, hgranted, rfl⟩
        exact ⟨rfl, fun g hg htype => hgranted g ⟨hg, htype⟩⟩
      · rintro ⟨rfl, hgranted⟩
        exact ⟨hgranted d hd rfl, fun g hg => hgranted g hg.1 hg.2, rfl⟩

namespace Validator

def ComparesWellFormed (v : Validator) (ctx : RequestContext) (granted : DetailSet) : Prop :=
  ∀ d ∈ granted.toList, ∀ rule : TypeRule, v.SupportedBy ctx d.type rule.processor →
    rule.matching = .structural → d.checkCommonFields = .ok ()

def ownVerdict (v : Validator) (ctx : RequestContext) (d : Detail) : Verdict :=
  if v.Supports ctx d.type then .validated else .rejected .unsupportedType

variable {v : Validator} {ctx : RequestContext} {granted : DetailSet}

theorem decides_ownVerdict (hstatic : v.registry.Static) (hwell : v.ComparesWellFormed ctx granted)
    {d : Detail} (hd : d ∈ granted.toList) : v.Decides ctx granted d (v.ownVerdict ctx d) := by
  by_cases h : v.Supports ctx d.type
  · obtain ⟨p, hp⟩ := h
    obtain ⟨rule, rfl⟩ := hstatic d.type p hp.registered
    have hgranted : rule.matching = .structural →
        ∀ g ∈ granted.toList, g.type = d.type → g.misfit? = none := by
      intro hrule g hg htype
      have hcheck := hwell g hg rule (htype ▸ hp) hrule
      exact Detail.checkCommonFields_eq_ok.mp hcheck
    have hjudge := (TypeRule.judge_ofType_eq_ok_iff_of_mem hd).mpr ⟨rfl, hgranted⟩
    rw [ownVerdict, if_pos ⟨_, hp⟩]
    exact .validated hp hjudge
  · rw [ownVerdict, if_neg h]
    exact .unsupported h

theorem comparesWellFormed_of_validate
    (h : ∃ o, (v.validate ctx granted granted).value = .ok o) :
    v.ComparesWellFormed ctx granted := by
  intro d hd rule hp hrule
  obtain ⟨answer, hjudge⟩ := exists_judge_ok_of_not_failsOn (exists_validate_ok_iff.mp h d hd) hp
  obtain ⟨-, hgranted⟩ := (TypeRule.judge_ofType_eq_ok_iff_of_mem hd).mp hjudge
  exact Detail.checkCommonFields_eq_ok.mpr (hgranted hrule d hd rfl)

theorem validate_self_value (hstatic : v.registry.Static)
    (hwell : v.ComparesWellFormed ctx granted) :
    (v.validate ctx granted granted).value =
      .ok (.assigning (v.ownVerdict ctx) granted.toList) :=
  validate_value_of_decides fun _ hd => decides_ownVerdict hstatic hwell hd

theorem exists_validate_self_iff (hstatic : v.registry.Static) :
    (∃ o, (v.validate ctx granted granted).value = .ok o) ↔ v.ComparesWellFormed ctx granted :=
  ⟨comparesWellFormed_of_validate, fun hwell => ⟨_, validate_self_value hstatic hwell⟩⟩

theorem outcome_of_validate_self (hstatic : v.registry.Static) {o : Outcome}
    (h : (v.validate ctx granted granted).value = .ok o) :
    o = .assigning (v.ownVerdict ctx) granted.toList := by
  have hwell := comparesWellFormed_of_validate ⟨o, h⟩
  exact Except.ok.inj (h.symm.trans (validate_self_value hstatic hwell))

theorem toList_validated_self (hstatic : v.registry.Static) {o : Outcome}
    (h : (v.validate ctx granted granted).value = .ok o) :
    o.validated.toList = granted.toList.filter fun d => v.Supports ctx d.type := by
  rw [outcome_of_validate_self hstatic h, Outcome.toList_validated_assigning _ granted.distinct]
  refine List.filter_congr fun d _ => ?_
  by_cases hsupports : v.Supports ctx d.type <;> simp [ownVerdict, hsupports]

theorem rejected_self (hstatic : v.registry.Static) {o : Outcome}
    (h : (v.validate ctx granted granted).value = .ok o) :
    o.rejected = (granted.toList.filter fun d => ¬ v.Supports ctx d.type).map
      fun d => (d, .unsupportedType) := by
  rw [outcome_of_validate_self hstatic h, Outcome.rejected_assigning, ← List.filterMap_eq_map,
    List.filterMap_filter]
  refine List.filterMap_congr fun d _ => ?_
  by_cases hsupports : v.Supports ctx d.type <;>
    simp [ownVerdict, hsupports, Verdict.rejection?]

end Validator

namespace Service

variable {s : Service} {ctx : RequestContext} {query : TokenQuery}
  {response : IntrospectionResponse} {token : TokenContext}

theorem introspect_value_eq_ok_iff_of_tokenContext
    (htoken : (s.tokenContext query response).value = .ok token)
    (hrequested : token.query.requested.isEmpty = true) {data : Json.Object} :
    (s.introspect ctx query response).value = .ok data ↔
      ∃ o, (s.validator.validate ctx token.granted token.granted).value = .ok o ∧
        data = detailsMembers o.validated := by
  have heffective : Validator.effectiveRequest token = token.granted := by
    simp [Validator.effectiveRequest, hrequested]
  simp only [introspect_value_eq_ok_iff, additionalData_value_eq_ok_iff, htoken,
    Validator.validatedForToken_value_eq_ok_iff]
  constructor
  · rintro ⟨_, _, ⟨⟩, ⟨o, ho, rfl⟩, rfl⟩
    exact ⟨o, heffective ▸ ho, rfl⟩
  · rintro ⟨o, ho, rfl⟩
    exact ⟨token, _, rfl, ⟨o, heffective.symm ▸ ho, rfl⟩, rfl⟩

theorem grant_confirms_itself (hstatic : s.registry.Static) (ctx : RequestContext)
    (granted : DetailSet) :
    ((∃ o, (s.validator.validate ctx granted granted).value = .ok o) ↔
      ∀ d ∈ granted.toList, ∀ rule : TypeRule,
        s.validator.SupportedBy ctx d.type rule.processor → rule.matching = .structural →
        d.checkCommonFields = .ok ()) ∧
    (∀ o, (s.validator.validate ctx granted granted).value = .ok o →
      o.validated.toList = granted.toList.filter (fun d => s.validator.Supports ctx d.type) ∧
      o.rejected = (granted.toList.filter fun d => ¬ s.validator.Supports ctx d.type).map
        (fun d => (d, .unsupportedType)) ∧
      ∀ d, (d, .notGranted) ∉ o.rejected) ∧
    ∀ query response token, (s.tokenContext query response).value = .ok token →
      token.query.requested.isEmpty = true → token.granted = granted →
      ((∃ data, (s.introspect ctx query response).value = .ok data) ↔
        ∃ o, (s.validator.validate ctx granted granted).value = .ok o) ∧
      ∀ data, (s.introspect ctx query response).value = .ok data →
        ∃ confirmed, Carries data confirmed ∧
          confirmed.toList =
            granted.toList.filter fun d => s.validator.Supports ctx d.type := by
  refine ⟨Validator.exists_validate_self_iff hstatic, ?_, ?_⟩
  · intro o ho
    have hrejected := Validator.rejected_self hstatic ho
    exact ⟨Validator.toList_validated_self hstatic ho, hrejected, by simp [hrejected]⟩
  · rintro query response token htoken hrequested rfl
    constructor
    · simp only [introspect_value_eq_ok_iff_of_tokenContext htoken hrequested]
      constructor
      · rintro ⟨_, o, ho, -⟩
        exact ⟨o, ho⟩
      · rintro ⟨o, ho⟩
        exact ⟨_, o, ho, rfl⟩
    · intro data hdata
      obtain ⟨o, ho, rfl⟩ :=
        (introspect_value_eq_ok_iff_of_tokenContext htoken hrequested).mp hdata
      exact ⟨o.validated, carries_detailsMembers _, Validator.toList_validated_self hstatic ho⟩

end Service

namespace Payments

def malformedAccount : Detail :=
  account.set "actions" (.string "read")

def mixedGrant : DetailSet :=
  .ofList [malformedAccount, detail ["initiate"], consent, detail ["cancel"]]

def mixedToken : TokenContext :=
  ⟨⟨"token", .empty⟩, .blank, some { AccessToken.blank with details := mixedGrant }⟩

def mixedResponse : IntrospectionResponse :=
  { IntrospectionResponse.blank with context := some mixedToken }

def mixedOutcome : Outcome :=
  ⟨[(malformedAccount, .rejected .unsupportedType), (detail ["initiate"], .validated),
    (consent, .validated), (detail ["cancel"], .validated)]⟩

theorem mixed_grant_confirms_itself :
    lenientService.registry.Static ∧
      (lenientService.validator.validate .default mixedGrant mixedGrant).value = .ok mixedOutcome ∧
      (∀ d ∈ mixedGrant.toList, ∀ rule : TypeRule,
        lenientService.validator.SupportedBy .default d.type rule.processor →
        rule.matching = .structural → d.checkCommonFields = .ok ()) ∧
      mixedOutcome.rejected = [(malformedAccount, .unsupportedType)] ∧
      (lenientService.tokenContext mixedToken.query mixedResponse).value = .ok mixedToken ∧
      ∃ data confirmed, (lenientService.introspect .default mixedToken.query mixedResponse).value =
          .ok data ∧ Service.Carries data confirmed ∧
        confirmed.toList = [detail ["initiate"], consent, detail ["cancel"]] := by
  have hrun : (lenientService.validator.validate .default mixedGrant mixedGrant).value =
      .ok mixedOutcome := rfl
  have htoken : (lenientService.tokenContext mixedToken.query mixedResponse).value =
      .ok mixedToken := rfl
  obtain ⟨hwell, houtcome, hintrospect⟩ :=
    Service.grant_confirms_itself static_lenientService .default mixedGrant
  obtain ⟨hvalidated, hrejected, -⟩ := houtcome _ hrun
  obtain ⟨hanswers, hcarries⟩ := hintrospect _ _ _ htoken rfl rfl
  obtain ⟨data, hdata⟩ := hanswers.mpr ⟨_, hrun⟩
  obtain ⟨confirmed, hconfirmed, hlist⟩ := hcarries data hdata
  refine ⟨static_lenientService, hrun, hwell.mp ⟨_, hrun⟩, rfl, htoken, data, confirmed, hdata,
    hconfirmed, ?_⟩
  rw [hlist, ← hvalidated]
  rfl

end Payments

end RichAuthorization
