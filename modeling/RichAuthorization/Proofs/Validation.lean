import RichAuthorization.Proofs.Matchers
import RichAuthorization.StaticRule

/-!
Validation is an ordered partition of the request: each requested detail gets one verdict, by a rule
that looks at nothing but its type, the processor of that type and the granted details of that type.
-/

namespace RichAuthorization

theorem Except.exists_error_iff {ε α : Type} {x : Except ε α} :
    (∃ e, x = .error e) ↔ ¬ ∃ a, x = .ok a := by
  cases x <;> simp

theorem Registry.mem_supportedTypes_value {r : Registry} {catalog : Catalog}
    {ctx : RequestContext} {type : String} :
    type ∈ (r.supportedTypes catalog ctx).value ↔
      (r.find? type).isSome = true ∧
        ∃ listed, catalog.list "" ctx.tenant = .ok listed ∧ type ∈ listed.map DetailType.type := by
  simp only [supportedTypes, Traced.bind_value, Traced.ask_value]
  cases h : catalog.list "" ctx.tenant with
  | error e => simp
  | ok listed =>
      simp only [Traced.pure_value, Named.mem_sortedNames, List.mem_filter]
      constructor
      · intro hmem
        exact ⟨hmem.2, listed, rfl, hmem.1⟩
      · rintro ⟨hsome, listed', heq, hmem⟩
        cases heq
        exact ⟨hmem, hsome⟩

namespace Outcome

def details (o : Outcome) : List Detail :=
  o.verdicts.map Prod.fst

def assigning (verdict : Detail → Verdict) (details : List Detail) : Outcome :=
  ⟨details.map fun d => (d, verdict d)⟩

theorem details_assigning (verdict : Detail → Verdict) (details : List Detail) :
    (assigning verdict details).details = details := by
  simp [assigning, Outcome.details, Function.comp_def]

theorem toList_validated {o : Outcome}
    (h : o.details.Pairwise fun a b => (a == b) = false) :
    o.validated.toList = (o.verdicts.filter fun entry => entry.2 = .validated).map Prod.fst := by
  apply DetailSet.toList_ofList_of_distinct
  exact h.sublist (List.filter_sublist.map Prod.fst)

theorem toList_validated_assigning (verdict : Detail → Verdict) {details : List Detail}
    (h : details.Pairwise fun a b => (a == b) = false) :
    (assigning verdict details).validated.toList =
      details.filter fun d => verdict d = .validated := by
  rw [toList_validated (by rwa [details_assigning])]
  simp [assigning, List.filter_map, Function.comp_def]

theorem rejected_assigning (verdict : Detail → Verdict) (details : List Detail) :
    (assigning verdict details).rejected =
      details.filterMap fun d => (verdict d).rejection?.map fun reason => (d, reason) := by
  simp only [assigning, rejected, List.filterMap_map, Function.comp_def]

theorem map_fst_rejected (o : Outcome) :
    o.rejected.map Prod.fst =
      (o.verdicts.filter fun entry => !decide (entry.2 = .validated)).map Prod.fst := by
  obtain ⟨verdicts⟩ := o
  simp only [rejected]
  induction verdicts with
  | nil => rfl
  | cons entry rest ih =>
      obtain ⟨d, verdict⟩ := entry
      cases verdict <;> simp_all [Verdict.rejection?]

theorem mem_validated {o : Outcome} (h : o.details.Pairwise fun a b => (a == b) = false)
    {d : Detail} : d ∈ o.validated.toList ↔ (d, .validated) ∈ o.verdicts := by
  rw [toList_validated h]
  simp

theorem mem_rejected {o : Outcome} {d : Detail} {reason : Rejection} :
    (d, reason) ∈ o.rejected ↔ (d, .rejected reason) ∈ o.verdicts := by
  simp only [rejected, List.mem_filterMap, Option.map_eq_some_iff]
  constructor
  · rintro ⟨⟨d', verdict⟩, hmem, reason', hreason, heq⟩
    cases heq
    cases verdict with
    | validated => simp [Verdict.rejection?] at hreason
    | rejected reason' =>
        cases hreason
        exact hmem
  · intro hmem
    exact ⟨(d, .rejected reason), hmem, reason, rfl, rfl⟩

theorem perm_details {o : Outcome} (h : o.details.Pairwise fun a b => (a == b) = false) :
    (o.validated.toList ++ o.rejected.map Prod.fst).Perm o.details := by
  rw [toList_validated h, map_fst_rejected, ← List.map_append]
  exact (List.filter_append_perm _ o.verdicts).map Prod.fst

end Outcome

namespace Validator

structure SupportedBy (v : Validator) (ctx : RequestContext) (type : String) (p : Processor) :
    Prop where
  registered : v.registry.find? type = some p
  declared : v.catalogRequired = true →
    ∃ listed, v.catalog.list "" ctx.tenant = .ok listed ∧ type ∈ listed.map DetailType.type

def Supports (v : Validator) (ctx : RequestContext) (type : String) : Prop :=
  ∃ p, v.SupportedBy ctx type p

inductive Decides (v : Validator) (ctx : RequestContext) (granted : DetailSet) (d : Detail) :
    Verdict → Prop
  | unsupported : (¬ ∃ p, v.SupportedBy ctx d.type p) →
      Decides v ctx granted d (.rejected .unsupportedType)
  | validated {p : Processor} : v.SupportedBy ctx d.type p →
      p.judge d (granted.ofType d.type) = .ok true → Decides v ctx granted d .validated
  | notGranted {p : Processor} : v.SupportedBy ctx d.type p →
      p.judge d (granted.ofType d.type) = .ok false →
      Decides v ctx granted d (.rejected .notGranted)

theorem SupportedBy.eq_of_find? {v : Validator} {ctx : RequestContext} {type : String}
    {p q : Processor} (hp : v.SupportedBy ctx type p) (hq : v.registry.find? type = some q) :
    p = q :=
  Option.some.inj (hp.registered.symm.trans hq)

theorem SupportedBy.unique {v : Validator} {ctx : RequestContext} {type : String}
    {p q : Processor} (hp : v.SupportedBy ctx type p) (hq : v.SupportedBy ctx type q) : p = q :=
  hp.eq_of_find? hq.registered

section

variable {v : Validator} {ctx : RequestContext} {granted : DetailSet}

theorem allows_allowedTypes_iff {type : String} (h : (v.registry.find? type).isSome = true) :
    allows (v.allowedTypes ctx).value type = true ↔
      (v.catalogRequired = true → ∃ listed, v.catalog.list "" ctx.tenant = .ok listed ∧
        type ∈ listed.map DetailType.type) := by
  simp only [allowedTypes]
  cases v.catalogRequired with
  | false => simp [allows]
  | true => simp [allows, Registry.mem_supportedTypes_value, h]

theorem matcherFor?_eq_some_iff {type : String} {m : Matcher} :
    v.matcherFor? ctx granted type = some m ↔
      v.SupportedBy ctx type m.processor ∧ m.reference = granted.ofType type := by
  simp only [matcherFor?, Option.map_eq_some_iff, Option.filter_eq_some_iff]
  constructor
  · rintro ⟨p, ⟨hfind, hallows⟩, rfl⟩
    have hsome : (v.registry.find? type).isSome = true := by simp [hfind]
    exact ⟨⟨hfind, (allows_allowedTypes_iff hsome).mp hallows⟩, rfl⟩
  · rintro ⟨h, hreference⟩
    have hsome : (v.registry.find? type).isSome = true := by simp [h.registered]
    exact ⟨m.processor, ⟨h.registered, (allows_allowedTypes_iff hsome).mpr h.declared⟩,
      by rw [← hreference]⟩

theorem matcherFor?_of_supportedBy {type : String} {p : Processor}
    (h : v.SupportedBy ctx type p) :
    v.matcherFor? ctx granted type = some ⟨p, granted.ofType type⟩ :=
  matcherFor?_eq_some_iff.mpr ⟨h, rfl⟩

theorem isSome_matcherFor?_iff {type : String} :
    (v.matcherFor? ctx granted type).isSome = true ↔ v.Supports ctx type := by
  rw [Option.isSome_iff_exists]
  constructor
  · rintro ⟨m, hm⟩
    exact ⟨m.processor, (matcherFor?_eq_some_iff.mp hm).1⟩
  · rintro ⟨p, hp⟩
    exact ⟨_, matcherFor?_of_supportedBy hp⟩

theorem judge_of_not_supports {d : Detail} (h : ¬ v.Supports ctx d.type) :
    judge (v.matcherFor? ctx granted) d = pure (.ok (.rejected .unsupportedType)) := by
  have hnone : v.matcherFor? ctx granted d.type = none := by
    rw [← Option.not_isSome_iff_eq_none, isSome_matcherFor?_iff]
    exact h
  simp only [judge, hnone]

theorem judge_of_supportedBy {d : Detail} {p : Processor} (h : v.SupportedBy ctx d.type p) :
    judge (v.matcherFor? ctx granted) d = Matcher.judge ⟨p, granted.ofType d.type⟩ d := by
  simp only [judge, matcherFor?_of_supportedBy h]

instance (type : String) : Decidable (v.Supports ctx type) :=
  decidable_of_iff ((v.matcherFor? ctx .empty type).isSome = true) isSome_matcherFor?_iff

theorem judge_value_of_not_supported {d : Detail} (h : ¬ ∃ p, v.SupportedBy ctx d.type p) :
    (judge (v.matcherFor? ctx granted) d).value = .ok (.rejected .unsupportedType) := by
  rw [judge_of_not_supports h, Traced.pure_value]

theorem judge_value_of_supportedBy {d : Detail} {p : Processor} (h : v.SupportedBy ctx d.type p) :
    (judge (v.matcherFor? ctx granted) d).value =
      match p.judge d (granted.ofType d.type) with
      | .ok true => .ok .validated
      | .ok false => .ok (.rejected .notGranted)
      | .error e => .error (.processorFailed d.type p.name e.message) := by
  rw [judge_of_supportedBy h]
  exact Matcher.judge_value _ d

theorem judge_value_eq_ok_iff {d : Detail} {verdict : Verdict} :
    (judge (v.matcherFor? ctx granted) d).value = .ok verdict ↔
      v.Decides ctx granted d verdict := by
  constructor
  · intro h
    by_cases hsupported : ∃ p, v.SupportedBy ctx d.type p
    · obtain ⟨p, hp⟩ := hsupported
      rw [judge_value_of_supportedBy hp] at h
      cases hanswer : p.judge d (granted.ofType d.type) with
      | error e => simp [hanswer] at h
      | ok answer =>
          cases answer with
          | true =>
              simp only [hanswer, Except.ok.injEq] at h
              exact h ▸ .validated hp hanswer
          | false =>
              simp only [hanswer, Except.ok.injEq] at h
              exact h ▸ .notGranted hp hanswer
    · rw [judge_value_of_not_supported hsupported] at h
      cases h
      exact .unsupported hsupported
  · intro h
    cases h with
    | unsupported hsupported => exact judge_value_of_not_supported hsupported
    | validated hp hanswer => rw [judge_value_of_supportedBy hp, hanswer]
    | notGranted hp hanswer => rw [judge_value_of_supportedBy hp, hanswer]

instance (d : Detail) (verdict : Verdict) : Decidable (v.Decides ctx granted d verdict) :=
  decidable_of_iff
    ((judge (v.matcherFor? ctx granted) d).value.toOption = some verdict) <| by
      rw [← judge_value_eq_ok_iff]
      cases (judge (v.matcherFor? ctx granted) d).value <;> simp [Except.toOption]

theorem Decides.unique {d : Detail} {verdict verdict' : Verdict}
    (h : v.Decides ctx granted d verdict) (h' : v.Decides ctx granted d verdict') :
    verdict = verdict' :=
  Except.ok.inj ((judge_value_eq_ok_iff.mpr h).symm.trans (judge_value_eq_ok_iff.mpr h'))

theorem judgeAll_value_eq_ok_iff {details : List Detail} {verdicts : List (Detail × Verdict)} :
    (judgeAll (v.matcherFor? ctx granted) details).value = .ok verdicts ↔
      verdicts.map Prod.fst = details ∧
        ∀ entry ∈ verdicts, v.Decides ctx granted entry.1 entry.2 := by
  induction details generalizing verdicts with
  | nil =>
      simp only [judgeAll, Traced.pure_value, Except.ok.injEq, List.map_eq_nil_iff]
      constructor
      · rintro rfl
        simp
      · intro h
        exact h.1.symm
  | cons d rest ih =>
      simp only [judgeAll, Traced.bind_value]
      constructor
      · intro h
        cases hd : (judge (v.matcherFor? ctx granted) d).value with
        | error e => simp [hd] at h
        | ok verdict =>
            cases hrest : (judgeAll (v.matcherFor? ctx granted) rest).value with
            | error e => simp [hd, hrest] at h
            | ok later =>
                simp only [hd, hrest, Traced.bind_value, Traced.pure_value, Except.ok.injEq] at h
                obtain ⟨hlater, hdecides⟩ := ih.mp hrest
                subst h
                refine ⟨by simp [hlater], List.forall_mem_cons.mpr ⟨?_, hdecides⟩⟩
                exact judge_value_eq_ok_iff.mp hd
      · rintro ⟨hmap, hall⟩
        obtain ⟨⟨d', verdict⟩, later, rfl, rfl, hlater⟩ := List.map_eq_cons_iff.mp hmap
        obtain ⟨hd, hrest⟩ := List.forall_mem_cons.mp hall
        rw [judge_value_eq_ok_iff.mpr hd]
        simp [ih.mpr ⟨hlater, hrest⟩]

-- The shortcut for an empty request spares questions and leaves the value as it is.
theorem validate_value (requested : DetailSet) :
    (v.validate ctx requested granted).value =
      (judgeAll (v.matcherFor? ctx granted) requested.toList).value.map Outcome.mk := by
  simp only [validate]
  split
  · next h =>
    have hnil : requested.toList = [] := List.isEmpty_iff.mp h
    simp [hnil, judgeAll, Outcome.empty, Except.map]
  · simp only [Traced.bind_value, judgeAll_resolveAll]
    cases (judgeAll (v.matcherFor? ctx granted) requested.toList).value <;> rfl

theorem validate_value_eq_ok_iff {requested : DetailSet} {o : Outcome} :
    (v.validate ctx requested granted).value = .ok o ↔
      o.details = requested.toList ∧
        ∀ entry ∈ o.verdicts, v.Decides ctx granted entry.1 entry.2 := by
  obtain ⟨verdicts⟩ := o
  simp only [Outcome.details, ← judgeAll_value_eq_ok_iff, validate_value]
  cases (judgeAll (v.matcherFor? ctx granted) requested.toList).value <;>
    simp [Except.map]

theorem validate_value_of_decides {requested : DetailSet} {verdict : Detail → Verdict}
    (h : ∀ d ∈ requested.toList, v.Decides ctx granted d (verdict d)) :
    (v.validate ctx requested granted).value = .ok (.assigning verdict requested.toList) := by
  refine validate_value_eq_ok_iff.mpr ⟨Outcome.details_assigning verdict _, ?_⟩
  intro entry hentry
  obtain ⟨d, hd, rfl⟩ := List.mem_map.mp hentry
  exact h d hd

theorem exists_verdicts {details : List Detail}
    (h : ∀ d ∈ details, ∃ verdict, v.Decides ctx granted d verdict) :
    ∃ verdicts : List (Detail × Verdict), verdicts.map Prod.fst = details ∧
      ∀ entry ∈ verdicts, v.Decides ctx granted entry.1 entry.2 := by
  induction details with
  | nil => exact ⟨[], rfl, by simp⟩
  | cons d rest ih =>
      obtain ⟨⟨verdict, hverdict⟩, hrest⟩ := List.forall_mem_cons.mp h
      obtain ⟨verdicts, hmap, hdecides⟩ := ih hrest
      exact ⟨(d, verdict) :: verdicts, by simp [hmap],
        List.forall_mem_cons.mpr ⟨hverdict, hdecides⟩⟩

theorem exists_validate_ok {requested : DetailSet}
    (h : ∀ d ∈ requested.toList, ∃ verdict, v.Decides ctx granted d verdict) :
    ∃ o, (v.validate ctx requested granted).value = .ok o := by
  obtain ⟨verdicts, hmap, hdecides⟩ := exists_verdicts h
  exact ⟨⟨verdicts⟩, validate_value_eq_ok_iff.mpr ⟨hmap, hdecides⟩⟩

variable {requested : DetailSet} {o : Outcome}

theorem distinct_details (h : (v.validate ctx requested granted).value = .ok o) :
    o.details.Pairwise fun a b => (a == b) = false := by
  rw [(validate_value_eq_ok_iff.mp h).1]
  exact requested.distinct

theorem mem_verdicts_iff (h : (v.validate ctx requested granted).value = .ok o) {d : Detail}
    {verdict : Verdict} :
    (d, verdict) ∈ o.verdicts ↔ d ∈ requested.toList ∧ v.Decides ctx granted d verdict := by
  obtain ⟨hdetails, hdecides⟩ := validate_value_eq_ok_iff.mp h
  rw [← hdetails]
  constructor
  · intro hmem
    exact ⟨List.mem_map_of_mem hmem, hdecides _ hmem⟩
  · rintro ⟨hmem, hd⟩
    obtain ⟨⟨d', verdict'⟩, hentry, rfl⟩ := List.mem_map.mp hmem
    have heq := hd.unique (hdecides _ hentry)
    exact heq ▸ hentry

theorem mem_validated_iff (h : (v.validate ctx requested granted).value = .ok o) {d : Detail} :
    d ∈ o.validated.toList ↔ d ∈ requested.toList ∧
      ∃ p, v.SupportedBy ctx d.type p ∧ p.judge d (granted.ofType d.type) = .ok true := by
  rw [Outcome.mem_validated (distinct_details h), mem_verdicts_iff h]
  refine and_congr_right fun _ => ⟨?_, ?_⟩
  · rintro (_ | ⟨hp, hanswer⟩ | _)
    exact ⟨_, hp, hanswer⟩
  · rintro ⟨p, hp, hanswer⟩
    exact .validated hp hanswer

theorem judge_of_mem_validated (h : (v.validate ctx requested granted).value = .ok o) {d : Detail}
    {p : Processor} (hfind : v.registry.find? d.type = some p) (hd : d ∈ o.validated.toList) :
    p.judge d (granted.ofType d.type) = .ok true := by
  obtain ⟨-, q, hq, hjudge⟩ := (mem_validated_iff h).mp hd
  rwa [hq.eq_of_find? hfind] at hjudge

theorem mem_rejected_unsupported_iff (h : (v.validate ctx requested granted).value = .ok o)
    {d : Detail} : (d, .unsupportedType) ∈ o.rejected ↔
      d ∈ requested.toList ∧ ¬ ∃ p, v.SupportedBy ctx d.type p := by
  rw [Outcome.mem_rejected, mem_verdicts_iff h]
  refine and_congr_right fun _ => ⟨?_, .unsupported⟩
  rintro (hsupported | _ | _)
  exact hsupported

theorem mem_rejected_notGranted_iff (h : (v.validate ctx requested granted).value = .ok o)
    {d : Detail} : (d, .notGranted) ∈ o.rejected ↔ d ∈ requested.toList ∧
      ∃ p, v.SupportedBy ctx d.type p ∧ p.judge d (granted.ofType d.type) = .ok false := by
  rw [Outcome.mem_rejected, mem_verdicts_iff h]
  refine and_congr_right fun _ => ⟨?_, ?_⟩
  · rintro (_ | _ | ⟨hp, hanswer⟩)
    exact ⟨_, hp, hanswer⟩
  · rintro ⟨p, hp, hanswer⟩
    exact .notGranted hp hanswer

theorem perm_requested (h : (v.validate ctx requested granted).value = .ok o) :
    (o.validated.toList ++ o.rejected.map Prod.fst).Perm requested.toList := by
  have hperm := Outcome.perm_details (distinct_details h)
  rwa [(validate_value_eq_ok_iff.mp h).1] at hperm

theorem validated_sublist_requested (h : (v.validate ctx requested granted).value = .ok o) :
    o.validated.toList.Sublist requested.toList := by
  rw [Outcome.toList_validated (distinct_details h), ← (validate_value_eq_ok_iff.mp h).1]
  exact List.filter_sublist.map Prod.fst

theorem toList_validated_eq_filter (h : (v.validate ctx requested granted).value = .ok o) :
    o.validated.toList =
      requested.toList.filter fun d => v.Decides ctx granted d .validated := by
  obtain ⟨hdetails, hdecides⟩ := validate_value_eq_ok_iff.mp h
  rw [Outcome.toList_validated (distinct_details h), ← hdetails, Outcome.details, List.filter_map]
  congr 1
  refine List.filter_congr fun entry hentry => decide_eq_decide.mpr ?_
  have hentry := hdecides entry hentry
  constructor
  · intro heq
    rwa [heq] at hentry
  · intro hvalidated
    exact hentry.unique hvalidated

theorem validated_sublist_validated {v' : Validator} {ctx' : RequestContext}
    {granted' : DetailSet} {o' : Outcome}
    (h : (v.validate ctx requested granted).value = .ok o)
    (h' : (v'.validate ctx' requested granted').value = .ok o')
    (hdecides : ∀ d ∈ requested.toList, v.Decides ctx granted d .validated →
      v'.Decides ctx' granted' d .validated) :
    o.validated.toList.Sublist o'.validated.toList := by
  have hfilter : o.validated.toList =
      o'.validated.toList.filter fun d => v.Decides ctx granted d .validated := by
    rw [toList_validated_eq_filter h, toList_validated_eq_filter h', List.filter_filter]
    refine List.filter_congr fun d hd => ?_
    simpa using hdecides d hd
  rw [hfilter]
  exact List.filter_sublist

theorem rejected_sublist_requested (h : (v.validate ctx requested granted).value = .ok o) :
    (o.rejected.map Prod.fst).Sublist requested.toList := by
  rw [Outcome.map_fst_rejected, ← (validate_value_eq_ok_iff.mp h).1]
  exact List.filter_sublist.map Prod.fst

theorem isFullyValidated_iff_size (h : (v.validate ctx requested granted).value = .ok o) :
    o.isFullyValidated = true ↔ o.validated.size = requested.size := by
  have hlen := (perm_requested h).length_eq
  rw [List.length_append, List.length_map] at hlen
  simp only [Outcome.isFullyValidated, List.isEmpty_iff_length_eq_zero, DetailSet.size]
  omega

theorem validated_eq_requested_iff (h : (v.validate ctx requested granted).value = .ok o) :
    o.validated = requested ↔ o.validated.size = requested.size := by
  constructor
  · intro heq
    rw [heq]
  · intro hsize
    have hlist := (validated_sublist_requested h).eq_of_length hsize
    rw [← DetailSet.ofList_toList o.validated, hlist, DetailSet.ofList_toList]

theorem validated_beq_requested_iff (h : (v.validate ctx requested granted).value = .ok o) :
    (o.validated == requested) = true ↔ o.validated.size = requested.size := by
  constructor
  · intro heq
    exact List.length_eq_of_beq heq
  · intro hsize
    rw [(validated_eq_requested_iff h).mpr hsize]
    exact beq_self_eq_true requested.toList

end

structure Partitions (v : Validator) (ctx : RequestContext) (requested granted : DetailSet)
    (o : Outcome) : Prop where
  validated_sublist : o.validated.toList.Sublist requested.toList
  rejected_sublist : (o.rejected.map Prod.fst).Sublist requested.toList
  complete : (o.validated.toList ++ o.rejected.map Prod.fst).Perm requested.toList
  once : (o.validated.toList ++ o.rejected.map Prod.fst).Pairwise fun a b => (a == b) = false
  validated_iff : ∀ d ∈ requested.toList, d ∈ o.validated.toList ↔
    ∃ p, v.SupportedBy ctx d.type p ∧ p.judge d (granted.ofType d.type) = .ok true
  unsupported_iff : ∀ d ∈ requested.toList, (d, .unsupportedType) ∈ o.rejected ↔
    ¬ ∃ p, v.SupportedBy ctx d.type p
  notGranted_iff : ∀ d ∈ requested.toList, (d, .notGranted) ∈ o.rejected ↔
    ∃ p, v.SupportedBy ctx d.type p ∧ p.judge d (granted.ofType d.type) = .ok false
  full_iff : o.isFullyValidated = true ↔ o.validated = requested
  full_iff_beq : o.isFullyValidated = true ↔ (o.validated == requested) = true

theorem validate_partitions {v : Validator} {ctx : RequestContext} {requested granted : DetailSet}
    {o : Outcome} (h : (v.validate ctx requested granted).value = .ok o) :
    v.Partitions ctx requested granted o where
  validated_sublist := validated_sublist_requested h
  rejected_sublist := rejected_sublist_requested h
  complete := perm_requested h
  once := by
    have hperm := (perm_requested h).symm
    refine (hperm.pairwise_iff ?_).mp requested.distinct
    intro a b hab
    rwa [BEq.comm]
  validated_iff d hd := by simp [mem_validated_iff h, hd]
  unsupported_iff d hd := by simp [mem_rejected_unsupported_iff h, hd]
  notGranted_iff d hd := by simp [mem_rejected_notGranted_iff h, hd]
  full_iff := (isFullyValidated_iff_size h).trans (validated_eq_requested_iff h).symm
  full_iff_beq := (isFullyValidated_iff_size h).trans (validated_beq_requested_iff h).symm

end Validator

namespace Payments

def detail (actions : List String) : Detail :=
  ⟨"payment", .ofList [("actions", .strings actions)], by decide, rfl⟩

def account : Detail :=
  ⟨"account", .empty, by decide, rfl⟩

def consent : Detail :=
  ⟨"consent", .empty, by decide, rfl⟩

def rule : TypeRule :=
  .strict "payment" .structural

def registry : Registry :=
  (Registry.empty.insert (TypeRule.strict "account" .typeOnly).processor (by decide)).insert
    rule.processor (by decide)

def catalog : Catalog :=
  ⟨fun _ _ => .ok [.named "payment", .named "consent"]⟩

def validator : Validator :=
  ⟨registry, catalog, true⟩

def granted : DetailSet :=
  .ofList [detail ["status"], detail ["initiate", "cancel"]]

def requested : DetailSet :=
  .ofList [account, detail ["cancel"], consent, detail ["initiate", "status"]]

def outcome : Outcome :=
  ⟨[(account, .rejected .unsupportedType), (detail ["cancel"], .validated),
    (consent, .rejected .unsupportedType),
    (detail ["initiate", "status"], .rejected .notGranted)]⟩

theorem validate_partitions_mixed :
    (validator.validate .default requested granted).value = .ok outcome ∧
      validator.Partitions .default requested granted outcome :=
  ⟨rfl, Validator.validate_partitions rfl⟩

end Payments

end RichAuthorization
