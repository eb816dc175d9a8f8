import RichAuthorization.Proofs.Validation

/-!
When validation fails: the first detail of the request whose processor fails decides the error.
-/

namespace RichAuthorization

namespace Validator

inductive Fails (v : Validator) (ctx : RequestContext) (granted : DetailSet) (d : Detail) :
    ServiceError → Prop
  | processor {p : Processor} {e : ProcessorError} : v.SupportedBy ctx d.type p →
      p.judge d (granted.ofType d.type) = .error e →
      Fails v ctx granted d (.processorFailed d.type p.name e.message)

def FailsOn (v : Validator) (ctx : RequestContext) (granted : DetailSet) (d : Detail) : Prop :=
  ∃ error, v.Fails ctx granted d error

def FirstFails (v : Validator) (ctx : RequestContext) (granted : DetailSet)
    (details : List Detail) (error : ServiceError) : Prop :=
  ∃ earlier d later, details = earlier ++ d :: later ∧
    (∀ prior ∈ earlier, ¬ v.FailsOn ctx granted prior) ∧ v.Fails ctx granted d error

section

variable {v : Validator} {ctx : RequestContext} {granted : DetailSet}

theorem judge_value_eq_error_iff {d : Detail} {error : ServiceError} :
    (judge (v.matcherFor? ctx granted) d).value = .error error ↔
      v.Fails ctx granted d error := by
  constructor
  · intro h
    by_cases hsupported : ∃ p, v.SupportedBy ctx d.type p
    · obtain ⟨p, hp⟩ := hsupported
      rw [judge_value_of_supportedBy hp] at h
      cases hanswer : p.judge d (granted.ofType d.type) with
      | error e =>
          simp only [hanswer, Except.error.injEq] at h
          exact h ▸ .processor hp hanswer
      | ok answer => cases answer <;> simp [hanswer] at h
    · rw [judge_value_of_not_supported hsupported] at h
      cases h
  · rintro ⟨hp, hanswer⟩
    rw [judge_value_of_supportedBy hp, hanswer]

theorem failsOn_iff {d : Detail} :
    v.FailsOn ctx granted d ↔
      ∃ p e, v.SupportedBy ctx d.type p ∧ p.judge d (granted.ofType d.type) = .error e := by
  constructor
  · rintro ⟨_, hp, hanswer⟩
    exact ⟨_, _, hp, hanswer⟩
  · rintro ⟨p, e, hp, hanswer⟩
    exact ⟨_, .processor hp hanswer⟩

theorem not_failsOn_iff {d : Detail} :
    ¬ v.FailsOn ctx granted d ↔ ∃ verdict, v.Decides ctx granted d verdict := by
  simp only [FailsOn, ← judge_value_eq_error_iff, ← judge_value_eq_ok_iff]
  cases (judge (v.matcherFor? ctx granted) d).value <;> simp

theorem exists_judge_ok_of_not_failsOn (h : ¬ v.FailsOn ctx granted d) {p : Processor}
    (hp : v.SupportedBy ctx d.type p) :
    ∃ answer, p.judge d (granted.ofType d.type) = .ok answer := by
  cases hjudge : p.judge d (granted.ofType d.type) with
  | error e => exact absurd (failsOn_iff.mpr ⟨p, e, hp, hjudge⟩) h
  | ok answer => exact ⟨answer, rfl⟩

theorem not_failsOn_of_not_supported {d : Detail} (h : ¬ v.Supports ctx d.type) :
    ¬ v.FailsOn ctx granted d :=
  not_failsOn_iff.mpr ⟨_, .unsupported h⟩

theorem not_supports_iff {type : String} :
    ¬ v.Supports ctx type ↔ v.registry.find? type = none ∨
      v.catalogRequired = true ∧ ∀ listed, v.catalog.list "" ctx.tenant = .ok listed →
        type ∉ listed.map DetailType.type := by
  constructor
  · intro h
    cases hfind : v.registry.find? type with
    | none => exact .inl rfl
    | some p =>
        cases hrequired : v.catalogRequired with
        | false => exact absurd ⟨p, hfind, by simp [hrequired]⟩ h
        | true =>
            refine .inr ⟨rfl, fun listed hlisted hmem => ?_⟩
            exact h ⟨p, hfind, fun _ => ⟨listed, hlisted, hmem⟩⟩
  · rintro (hnone | ⟨hrequired, hundeclared⟩) ⟨p, hp⟩
    · simp [hp.registered] at hnone
    · obtain ⟨listed, hlisted, hmem⟩ := hp.declared hrequired
      exact hundeclared listed hlisted hmem

theorem not_firstFails_nil {error : ServiceError} : ¬ v.FirstFails ctx granted [] error := by
  rintro ⟨earlier, d, later, hnil, -⟩
  simp at hnil

theorem firstFails_cons_iff {d : Detail} {rest : List Detail} {error : ServiceError} :
    v.FirstFails ctx granted (d :: rest) error ↔ v.Fails ctx granted d error ∨
      ¬ v.FailsOn ctx granted d ∧ v.FirstFails ctx granted rest error := by
  constructor
  · rintro ⟨earlier, first, later, hsplit, hearlier, hfails⟩
    rcases List.cons_eq_append_iff.mp hsplit with ⟨rfl, hhead⟩ | ⟨earlier', rfl, hrest⟩
    · obtain ⟨rfl, -⟩ := List.cons.inj hhead
      exact .inl hfails
    · obtain ⟨hd, hearlier'⟩ := List.forall_mem_cons.mp hearlier
      exact .inr ⟨hd, earlier', first, later, hrest, hearlier', hfails⟩
  · rintro (hfails | ⟨hd, earlier, first, later, rfl, hearlier, hfails⟩)
    · exact ⟨[], d, rest, rfl, List.forall_mem_nil _, hfails⟩
    · exact ⟨d :: earlier, first, later, rfl, List.forall_mem_cons.mpr ⟨hd, hearlier⟩, hfails⟩

-- The induction is on the request: a head that fails ends the walk, any other head leaves the error
-- to the rest.
theorem judgeAll_value_eq_error_iff {details : List Detail} {error : ServiceError} :
    (judgeAll (v.matcherFor? ctx granted) details).value = .error error ↔
      v.FirstFails ctx granted details error := by
  induction details with
  | nil => simp [judgeAll, not_firstFails_nil]
  | cons d rest ih =>
      rw [firstFails_cons_iff, ← ih, ← judge_value_eq_error_iff, not_failsOn_iff]
      simp only [← judge_value_eq_ok_iff, judgeAll, Traced.bind_value]
      cases (judge (v.matcherFor? ctx granted) d).value with
      | error e => simp
      | ok verdict =>
          simp only [Traced.bind_value]
          cases (judgeAll (v.matcherFor? ctx granted) rest).value <;> simp

variable {requested : DetailSet}

theorem validate_value_eq_error_iff {error : ServiceError} :
    (v.validate ctx requested granted).value = .error error ↔
      v.FirstFails ctx granted requested.toList error := by
  rw [← judgeAll_value_eq_error_iff, validate_value]
  cases (judgeAll (v.matcherFor? ctx granted) requested.toList).value <;>
    simp [Except.map]

theorem exists_validate_ok_iff :
    (∃ o, (v.validate ctx requested granted).value = .ok o) ↔
      ∀ d ∈ requested.toList, ¬ v.FailsOn ctx granted d := by
  constructor
  · rintro ⟨o, ho⟩ d hd
    obtain ⟨hdetails, hdecides⟩ := validate_value_eq_ok_iff.mp ho
    rw [← hdetails] at hd
    obtain ⟨entry, hentry, rfl⟩ := List.mem_map.mp hd
    exact not_failsOn_iff.mpr ⟨entry.2, hdecides entry hentry⟩
  · intro h
    exact exists_validate_ok fun d hd => not_failsOn_iff.mp (h d hd)

theorem exists_validate_error_iff :
    (∃ error, (v.validate ctx requested granted).value = .error error) ↔
      ∃ d ∈ requested.toList, v.FailsOn ctx granted d := by
  rw [Except.exists_error_iff, exists_validate_ok_iff]
  simp only [Classical.not_forall, Classical.not_not, exists_prop]

theorem exists_validate_ok_of_not_supported
    (h : ∀ d ∈ requested.toList, ¬ v.Supports ctx d.type) :
    ∃ o, (v.validate ctx requested granted).value = .ok o :=
  exists_validate_ok_iff.mpr fun d hd => not_failsOn_of_not_supported (h d hd)

end

theorem validate_fails_exactly (v : Validator) (ctx : RequestContext)
    (requested granted : DetailSet) :
    ((∃ error, (v.validate ctx requested granted).value = .error error) ↔
      ∃ d ∈ requested.toList, ∃ p e, v.SupportedBy ctx d.type p ∧
        p.judge d (granted.ofType d.type) = .error e) ∧
    (∀ error, (v.validate ctx requested granted).value = .error error ↔
      v.FirstFails ctx granted requested.toList error) ∧
    ((∀ d ∈ requested.toList, v.registry.find? d.type = none ∨
      v.catalogRequired = true ∧ ∀ listed, v.catalog.list "" ctx.tenant = .ok listed →
        d.type ∉ listed.map DetailType.type) →
      ∃ o, (v.validate ctx requested granted).value = .ok o) ∧
    (v.catalogRequired = true → ∀ e, v.catalog.list "" ctx.tenant = .error e →
      ∃ o, (v.validate ctx requested granted).value = .ok o) ∧
    (requested.isEmpty = true → ∃ o, (v.validate ctx requested granted).value = .ok o) := by
  refine ⟨?_, fun error => validate_value_eq_error_iff, ?_, ?_, ?_⟩
  · rw [exists_validate_error_iff]
    simp only [failsOn_iff]
  · intro hunsupported
    exact exists_validate_ok_of_not_supported fun d hd =>
      not_supports_iff.mpr (hunsupported d hd)
  · intro hrequired e he
    exact exists_validate_ok_of_not_supported fun d _ =>
      not_supports_iff.mpr (.inr ⟨hrequired, by simp [he]⟩)
  · intro hempty
    have hnil : requested.toList = [] := List.isEmpty_iff.mp hempty
    exact exists_validate_ok_of_not_supported (by simp [hnil])

end Validator

namespace Payments

def misfitting (name : String) : Detail :=
  (detail []).set name (.string "cancel")

example : (validator.validate .default (.ofList [account, detail ["cancel"],
      misfitting "actions", misfitting "locations"]) granted).value =
    .error (.processorFailed "payment" "StaticProcessor(structural)"
      "malformed authorization detail: 'actions' of 'payment' must be an array of strings") := rfl

end Payments

end RichAuthorization
