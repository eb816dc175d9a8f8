import RichAuthorization.Proofs.Validation

/-!
Types do not interfere: what is decided on the details of one type depends on the processor of that
type, on whether the type is supported, and on the requested and granted details of that type.
-/

namespace RichAuthorization

namespace Outcome

def verdictsOn (o : Outcome) (type : String) : List (Detail × Verdict) :=
  o.verdicts.filter fun entry => entry.1.type = type

theorem details_verdictsOn {o : Outcome} {requested : DetailSet}
    (h : o.details = requested.toList) (type : String) :
    (o.verdictsOn type).map Prod.fst = (requested.ofType type).toList := by
  rw [DetailSet.toList_ofType, ← h, details, List.filter_map]
  rfl

theorem toList_validated_ofType {o : Outcome}
    (h : o.details.Pairwise fun a b => (a == b) = false) (type : String) :
    (o.validated.ofType type).toList =
      ((o.verdictsOn type).filter fun entry => entry.2 = .validated).map Prod.fst := by
  rw [DetailSet.toList_ofType, toList_validated h, List.filter_map, verdictsOn, List.filter_filter,
    List.filter_filter]
  simp only [Function.comp_def, Bool.and_comm]

theorem filter_rejected (o : Outcome) (type : String) :
    (o.rejected.filter fun entry => entry.1.type = type) = rejected ⟨o.verdictsOn type⟩ := by
  simp only [rejected, verdictsOn, List.filter_filterMap, List.filterMap_filter]
  congr 1
  funext entry
  obtain ⟨d, verdict⟩ := entry
  cases verdict <;> simp [Verdict.rejection?, Option.filter]

end Outcome

namespace Validator

structure AgreeOn (type : String) (v v' : Validator) (ctx ctx' : RequestContext)
    (granted granted' : DetailSet) : Prop where
  processor : v.registry.find? type = v'.registry.find? type
  supported : v.Supports ctx type ↔ v'.Supports ctx' type
  granted : granted.ofType type = granted'.ofType type

variable {v v' : Validator} {ctx ctx' : RequestContext}
variable {requested requested' granted granted' : DetailSet}

theorem AgreeOn.symm {type : String} (h : AgreeOn type v v' ctx ctx' granted granted') :
    AgreeOn type v' v ctx' ctx granted' granted :=
  ⟨h.processor.symm, h.supported.symm, h.granted.symm⟩

theorem AgreeOn.supportedBy {type : String} (h : AgreeOn type v v' ctx ctx' granted granted')
    {p : Processor} (hp : v.SupportedBy ctx type p) : v'.SupportedBy ctx' type p := by
  obtain ⟨q, hq⟩ := h.supported.mp ⟨p, hp⟩
  obtain rfl : q = p := hq.eq_of_find? (h.processor ▸ hp.registered)
  exact hq

theorem AgreeOn.decides {d : Detail} (h : AgreeOn d.type v v' ctx ctx' granted granted')
    {verdict : Verdict} (hd : v.Decides ctx granted d verdict) :
    v'.Decides ctx' granted' d verdict := by
  cases hd with
  | unsupported hsupported =>
      exact .unsupported fun hsupported' => hsupported (h.supported.mpr hsupported')
  | validated hp hanswer => exact .validated (h.supportedBy hp) (h.granted ▸ hanswer)
  | notGranted hp hanswer => exact .notGranted (h.supportedBy hp) (h.granted ▸ hanswer)

theorem verdictsOn_eq {type : String} {o o' : Outcome}
    (hagree : AgreeOn type v v' ctx ctx' granted granted')
    (hrequested : requested.ofType type = requested'.ofType type)
    (h : (v.validate ctx requested granted).value = .ok o)
    (h' : (v'.validate ctx' requested' granted').value = .ok o') :
    o.verdictsOn type = o'.verdictsOn type := by
  obtain ⟨hdetails, hdecides⟩ := validate_value_eq_ok_iff.mp h
  obtain ⟨hdetails', hdecides'⟩ := validate_value_eq_ok_iff.mp h'
  -- both lists are what one walk over the requested details of the type finds
  have hwalk : (judgeAll (v.matcherFor? ctx granted)
      (requested.ofType type).toList).value = .ok (o.verdictsOn type) := by
    refine judgeAll_value_eq_ok_iff.mpr ⟨Outcome.details_verdictsOn hdetails type, ?_⟩
    intro entry hentry
    exact hdecides entry (List.mem_filter.mp hentry).1
  have hwalk' : (judgeAll (v.matcherFor? ctx granted)
      (requested.ofType type).toList).value = .ok (o'.verdictsOn type) := by
    rw [hrequested]
    refine judgeAll_value_eq_ok_iff.mpr ⟨Outcome.details_verdictsOn hdetails' type, ?_⟩
    intro entry hentry
    obtain ⟨hmem, htype⟩ := List.mem_filter.mp hentry
    obtain rfl : entry.1.type = type := of_decide_eq_true htype
    exact hagree.symm.decides (hdecides' entry hmem)
  exact Except.ok.inj (hwalk.symm.trans hwalk')

theorem types_do_not_interfere {type : String} {o o' : Outcome}
    (hprocessor : v.registry.find? type = v'.registry.find? type)
    (hsupported : v.Supports ctx type ↔ v'.Supports ctx' type)
    (hrequested : requested.ofType type = requested'.ofType type)
    (hgranted : granted.ofType type = granted'.ofType type)
    (h : (v.validate ctx requested granted).value = .ok o)
    (h' : (v'.validate ctx' requested' granted').value = .ok o') :
    o.validated.ofType type = o'.validated.ofType type ∧
      (o.rejected.filter fun entry => entry.1.type = type) =
        o'.rejected.filter fun entry => entry.1.type = type := by
  have hverdicts := verdictsOn_eq ⟨hprocessor, hsupported, hgranted⟩ hrequested h h'
  constructor
  · apply DetailSet.eq_of_toList_eq
    rw [Outcome.toList_validated_ofType (distinct_details h),
      Outcome.toList_validated_ofType (distinct_details h'), hverdicts]
  · rw [Outcome.filter_rejected, Outcome.filter_rejected, hverdicts]

end Validator

namespace Payments

def paymentsOnly : Validator :=
  ⟨(Registry.empty.registerStatic ⟨[rule]⟩).value.2, ⟨fun _ _ => .error (.unavailable "offline")⟩,
    false⟩

def otherRequested : DetailSet :=
  .ofList [detail ["cancel"], detail ["initiate", "status"], account]

def otherGranted : DetailSet :=
  .ofList [consent, detail ["status"], account, detail ["initiate", "cancel"]]

def otherOutcome : Outcome :=
  ⟨[(detail ["cancel"], .validated), (detail ["initiate", "status"], .rejected .notGranted),
    (account, .rejected .unsupportedType)]⟩

theorem payments_not_interfered_with :
    validator.registry.find? "payment" = paymentsOnly.registry.find? "payment" ∧
      (validator.Supports .default "payment" ↔
        paymentsOnly.Supports (RequestContext.default.withTenant "acme") "payment") ∧
      requested.ofType "payment" = otherRequested.ofType "payment" ∧
      granted.ofType "payment" = otherGranted.ofType "payment" ∧
      (validator.validate .default requested granted).value = .ok outcome ∧
      (paymentsOnly.validate (RequestContext.default.withTenant "acme") otherRequested
        otherGranted).value = .ok otherOutcome ∧
      outcome.validated.ofType "payment" = otherOutcome.validated.ofType "payment" ∧
      (outcome.rejected.filter fun entry => entry.1.type = "payment") =
        otherOutcome.rejected.filter fun entry => entry.1.type = "payment" := by
  have hprocessor : validator.registry.find? "payment" = paymentsOnly.registry.find? "payment" :=
    rfl
  have hsupported : validator.Supports .default "payment" ↔
      paymentsOnly.Supports (RequestContext.default.withTenant "acme") "payment" :=
    iff_of_true ⟨rule.processor, rfl, fun _ => ⟨_, rfl, List.mem_cons_self⟩⟩
      ⟨rule.processor, rfl, by rintro ⟨⟩⟩
  have hrequested : requested.ofType "payment" = otherRequested.ofType "payment" := rfl
  have hgranted : granted.ofType "payment" = otherGranted.ofType "payment" := rfl
  have hrun : (validator.validate .default requested granted).value = .ok outcome := rfl
  have hother : (paymentsOnly.validate (RequestContext.default.withTenant "acme") otherRequested
      otherGranted).value = .ok otherOutcome := rfl
  exact ⟨hprocessor, hsupported, hrequested, hgranted, hrun, hother,
    Validator.types_do_not_interfere hprocessor hsupported hrequested hgranted hrun hother⟩

end Payments

end RichAuthorization
