import RichAuthorization.Proofs.Introspection

/-!
What a token without granted details confirms.
-/

namespace RichAuthorization

theorem TypeRule.judge_ofType_of_isEmpty (rule : TypeRule) {granted : DetailSet}
    (h : granted.isEmpty = true) (d : Detail) :
    rule.processor.judge d (granted.ofType d.type) = .ok rule.subsetOfEmpty := by
  have hnil : granted.toList = [] := List.isEmpty_iff.mp h
  exact rule.judge_ofType_of_none (by simp [hnil])

namespace Validator

def Presumes (v : Validator) (ctx : RequestContext) (type : String) : Prop :=
  ∃ rule : TypeRule, v.SupportedBy ctx type rule.processor ∧ rule.subsetOfEmpty = true

section

variable {v : Validator} {ctx : RequestContext} {requested granted : DetailSet}

theorem exists_decides_of_isEmpty (hstatic : v.registry.Static) (h : granted.isEmpty = true)
    (d : Detail) : ∃ verdict, v.Decides ctx granted d verdict := by
  by_cases hsupported : ∃ p, v.SupportedBy ctx d.type p
  · obtain ⟨p, hp⟩ := hsupported
    obtain ⟨rule, rfl⟩ := hstatic d.type p hp.registered
    have hjudge := rule.judge_ofType_of_isEmpty h d
    cases hrule : rule.subsetOfEmpty with
    | true => exact ⟨.validated, .validated hp (hrule ▸ hjudge)⟩
    | false => exact ⟨.rejected .notGranted, .notGranted hp (hrule ▸ hjudge)⟩
  · exact ⟨.rejected .unsupportedType, .unsupported hsupported⟩

theorem mem_validated_iff_presumes (hstatic : v.registry.Static) (hempty : granted.isEmpty = true)
    {o : Outcome} (h : (v.validate ctx requested granted).value = .ok o) {d : Detail} :
    d ∈ o.validated.toList ↔ d ∈ requested.toList ∧ v.Presumes ctx d.type := by
  rw [mem_validated_iff h]
  refine and_congr_right fun _ => ⟨?_, ?_⟩
  · rintro ⟨p, hp, hjudge⟩
    obtain ⟨rule, rfl⟩ := hstatic d.type p hp.registered
    rw [rule.judge_ofType_of_isEmpty hempty] at hjudge
    exact ⟨rule, hp, Except.ok.inj hjudge⟩
  · rintro ⟨rule, hp, hrule⟩
    have hjudge := rule.judge_ofType_of_isEmpty hempty d
    exact ⟨rule.processor, hp, hrule ▸ hjudge⟩

theorem toList_effectiveRequest {token : TokenContext} (h : token.granted.isEmpty = true) :
    (effectiveRequest token).toList = token.query.requested.toList := by
  have hgranted : token.granted.toList = [] := List.isEmpty_iff.mp h
  simp only [effectiveRequest]
  split
  · next hrequested => rw [hgranted, List.isEmpty_iff.mp hrequested]
  · rfl

theorem validatedForToken_of_isEmpty (hstatic : v.registry.Static) (ctx : RequestContext)
    {token : TokenContext} (hempty : token.granted.isEmpty = true) :
    ∃ confirmed, (v.validatedForToken ctx token).value = .ok confirmed ∧
      confirmed.toList.Sublist token.query.requested.toList ∧
      ∀ d, d ∈ confirmed.toList ↔
        d ∈ token.query.requested.toList ∧ v.Presumes ctx d.type := by
  have hdecides : ∀ d ∈ (effectiveRequest token).toList,
      ∃ verdict, v.Decides ctx token.granted d verdict :=
    fun d _ => exists_decides_of_isEmpty hstatic hempty d
  obtain ⟨o, ho⟩ := exists_validate_ok hdecides
  refine ⟨o.validated, validatedForToken_value_eq_ok_iff.mpr ⟨o, ho, rfl⟩, ?_, fun d => ?_⟩
  · have hsublist := validated_sublist_requested ho
    rwa [toList_effectiveRequest hempty] at hsublist
  · rw [mem_validated_iff_presumes hstatic hempty ho, toList_effectiveRequest hempty]

end

end Validator

namespace Service

theorem find?_detailsMembers_eq_none {confirmed : DetailSet} :
    (detailsMembers confirmed).find? detailsMember = none ↔ confirmed.isEmpty = true := by
  simp only [Option.eq_none_iff_forall_ne_some, ne_eq, find?_detailsMembers, not_and]
  cases confirmed.isEmpty <;> simp

theorem introspect_without_grant {s : Service} (hstatic : s.registry.Static)
    (ctx : RequestContext) {token : TokenContext} (hempty : token.granted.isEmpty = true) :
    ∃ confirmed, (s.validator.validatedForToken ctx token).value = .ok confirmed ∧
      confirmed.toList.Sublist token.query.requested.toList ∧
      (∀ d, d ∈ confirmed.toList ↔
        d ∈ token.query.requested.toList ∧ s.validator.Presumes ctx d.type) ∧
      (confirmed.isEmpty = true ↔
        ∀ d ∈ token.query.requested.toList, ¬ s.validator.Presumes ctx d.type) ∧
      ∀ query response, (s.tokenContext query response).value = .ok token →
        ∃ data, (s.introspect ctx query response).value = .ok data ∧
          (data.find? detailsMember = none ↔
            ∀ d ∈ token.query.requested.toList, ¬ s.validator.Presumes ctx d.type) := by
  obtain ⟨confirmed, hconfirmed, hsublist, hmem⟩ :=
    Validator.validatedForToken_of_isEmpty (v := s.validator) hstatic ctx hempty
  have hnone : confirmed.isEmpty = true ↔
      ∀ d ∈ token.query.requested.toList, ¬ s.validator.Presumes ctx d.type := by
    simp only [DetailSet.isEmpty, List.isEmpty_iff, List.eq_nil_iff_forall_not_mem, hmem, not_and]
  refine ⟨confirmed, hconfirmed, hsublist, hmem, hnone, ?_⟩
  intro query response htoken
  have hdata := additionalData_value_eq_ok_iff.mpr ⟨token, confirmed, htoken, hconfirmed, rfl⟩
  exact ⟨detailsMembers confirmed, introspect_value_eq_ok_iff.mpr hdata,
    find?_detailsMembers_eq_none.trans hnone⟩

end Service

namespace Payments

def lenientRules : StaticRules :=
  ⟨[rule, ⟨"consent", .typeOnly, true⟩]⟩

def lenientService : Service :=
  { service with registry := (Registry.empty.registerStatic lenientRules).value.2 }

def unconsented : TokenContext :=
  ⟨⟨"token", .ofList [detail ["cancel"], consent]⟩, .blank, none⟩

def unconsentedResponse : IntrospectionResponse :=
  { IntrospectionResponse.blank with context := some unconsented }

theorem static_lenientService : lenientService.registry.Static :=
  Registry.static_empty.registerStatic lenientRules

theorem introspect_without_grant_lenient :
    lenientService.registry.Static ∧ unconsented.granted.isEmpty = true ∧
      (lenientService.tokenContext unconsented.query unconsentedResponse).value =
        .ok unconsented ∧
      ∃ confirmed,
        (lenientService.validator.validatedForToken .default unconsented).value = .ok confirmed ∧
        (∀ d, d ∈ confirmed.toList ↔ d ∈ unconsented.query.requested.toList ∧
          lenientService.validator.Presumes .default d.type) ∧
        ∃ data,
          (lenientService.introspect .default unconsented.query unconsentedResponse).value =
            .ok data ∧
          (data.find? detailsMember = none ↔ ∀ d ∈ unconsented.query.requested.toList,
            ¬ lenientService.validator.Presumes .default d.type) := by
  have htoken : (lenientService.tokenContext unconsented.query unconsentedResponse).value =
      .ok unconsented := rfl
  obtain ⟨confirmed, hconfirmed, -, hmem, -, hintrospect⟩ :=
    Service.introspect_without_grant static_lenientService .default
      (show unconsented.granted.isEmpty = true from rfl)
  exact ⟨static_lenientService, rfl, htoken, confirmed, hconfirmed, hmem,
    hintrospect _ _ htoken⟩

theorem introspect_confirms_unconsented :
    lenientService.registry.Static ∧ unconsented.granted.isEmpty = true ∧
      (lenientService.validator.validatedForToken .default unconsented).value =
        .ok (.ofList [consent]) ∧
      (lenientService.introspect .default unconsented.query unconsentedResponse).value =
        .ok (.ofList [(detailsMember, .array [consent.toJson])]) :=
  ⟨static_lenientService, rfl, rfl, rfl⟩

end Payments

end RichAuthorization
