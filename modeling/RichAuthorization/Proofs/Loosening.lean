import Mathlib.Data.List.Forall2
import RichAuthorization.Proofs.Failure
import RichAuthorization.Proofs.Registration

/-!
A structural rule refines the rule that compares the types alone.
-/

namespace RichAuthorization

namespace TypeRule

structure LoosensTo (rule looser : TypeRule) : Prop where
  type_eq : rule.type = looser.type
  subsetOfEmpty_eq : rule.subsetOfEmpty = looser.subsetOfEmpty
  matching : rule.matching = looser.matching ∨
    rule.matching = .structural ∧ looser.matching = .typeOnly

theorem LoosensTo.exists_judge_ofType {rule looser : TypeRule} (h : rule.LoosensTo looser)
    {granted : DetailSet} {d : Detail} {answer : Bool}
    (hjudge : rule.judge d (granted.ofType d.type) = .ok answer) :
    ∃ answer', looser.judge d (granted.ofType d.type) = .ok answer' ∧
      (answer = true → answer' = true) := by
  obtain ⟨htype, hsubset, hmatching | ⟨-, hlooser⟩⟩ := h
  · obtain rfl : rule = looser := by
      cases rule
      cases looser
      simp_all
    exact ⟨answer, hjudge, id⟩
  · cases hempty : (granted.ofType d.type).isEmpty with
    | true =>
        rw [judge_of_isEmpty hempty, hsubset] at hjudge
        cases hjudge
        exact ⟨_, judge_of_isEmpty hempty d, id⟩
    | false => exact ⟨true, judge_ofType_typeOnly hlooser hempty, fun _ => rfl⟩

end TypeRule

inductive Processor.LoosensTo : Processor → Processor → Prop
  | same (p : Processor) : LoosensTo p p
  | rule {rule looser : TypeRule} : rule.LoosensTo looser →
      LoosensTo rule.processor looser.processor

namespace Processor.LoosensTo

variable {p q : Processor}

theorem type_eq (h : p.LoosensTo q) : p.type = q.type := by
  cases h with
  | same => rfl
  | rule hrule => exact hrule.type_eq

theorem exists_judge_ofType (h : p.LoosensTo q) {granted : DetailSet} {d : Detail} {answer : Bool}
    (hjudge : p.judge d (granted.ofType d.type) = .ok answer) :
    ∃ answer', q.judge d (granted.ofType d.type) = .ok answer' ∧
      (answer = true → answer' = true) := by
  cases h with
  | same => exact ⟨answer, hjudge, id⟩
  | rule hrule => exact hrule.exists_judge_ofType hjudge

end Processor.LoosensTo

namespace Registry

def LoosensTo (r looser : Registry) : Prop :=
  ∀ type, Option.Rel Processor.LoosensTo (r.find? type) (looser.find? type)

variable {r looser : Registry}

theorem LoosensTo.exists_find? (h : r.LoosensTo looser) {type : String} {p : Processor}
    (hp : r.find? type = some p) : ∃ q, looser.find? type = some q ∧ p.LoosensTo q := by
  have hrel := h type
  rw [hp] at hrel
  cases hq : looser.find? type with
  | none => simp [hq] at hrel
  | some q => exact ⟨q, rfl, by simpa [hq] using hrel⟩

theorem LoosensTo.isSome_find? (h : r.LoosensTo looser) (type : String) :
    (r.find? type).isSome = (looser.find? type).isSome := by
  have hrel := h type
  generalize r.find? type = found, looser.find? type = found' at hrel ⊢
  cases hrel <;> rfl

theorem LoosensTo.refl (r : Registry) : r.LoosensTo r := by
  intro type
  cases r.find? type with
  | none => exact .none
  | some p => exact .some (.same p)

theorem LoosensTo.register (h : r.LoosensTo looser) {p q : Processor} (hpq : p.LoosensTo q) :
    (r.register p).value.2.LoosensTo (looser.register q).value.2 := by
  intro type
  simp only [find?_register, latest?_singleton, hpq.type_eq]
  split
  · exact .some hpq
  · exact h type

theorem LoosensTo.registerAll (h : r.LoosensTo looser) {processors processors' : List Processor}
    (hprocessors : List.Forall₂ Processor.LoosensTo processors processors') :
    (r.registerAll processors).value.LoosensTo (looser.registerAll processors').value := by
  induction hprocessors generalizing r looser with
  | nil => exact h
  | cons hpq _ ih => exact ih (h.register hpq)

def configuredWith (r : Registry) (s : StaticRules) (later : List Registration) : Registry :=
  (r.performAll (.configured s :: later)).value.2

theorem configuredWith_eq_registerAll (r : Registry) (s : StaticRules)
    (later : List Registration) :
    r.configuredWith s later =
      ((r.registerAll (s.rules.map TypeRule.processor)).value.registerAll
        (later.flatMap Registration.processors)).value := by
  rw [configuredWith, value_performAll, List.flatMap_cons, value_registerAll_append]
  rfl

theorem loosensTo_configuredWith (r : Registry) {s looser : StaticRules}
    (h : List.Forall₂ TypeRule.LoosensTo s.rules looser.rules) (later : List Registration) :
    (r.configuredWith s later).LoosensTo (r.configuredWith looser later) := by
  have hrules : List.Forall₂ Processor.LoosensTo (s.rules.map TypeRule.processor)
      (looser.rules.map TypeRule.processor) :=
    List.forall₂_map_left_iff.mpr (List.forall₂_map_right_iff.mpr (h.imp fun _ _ => .rule))
  have hlater : List.Forall₂ Processor.LoosensTo (later.flatMap Registration.processors)
      (later.flatMap Registration.processors) :=
    List.forall₂_same.mpr fun p _ => .same p
  rw [configuredWith_eq_registerAll, configuredWith_eq_registerAll]
  exact ((LoosensTo.refl r).registerAll hrules).registerAll hlater

end Registry

namespace Validator

theorem filter_rejected_unsupported {v : Validator} {ctx : RequestContext}
    {requested granted : DetailSet} {o : Outcome}
    (h : (v.validate ctx requested granted).value = .ok o) :
    (o.rejected.filter fun entry => entry.2 = .unsupportedType) =
      (requested.toList.filter fun d => ¬ v.Supports ctx d.type).map
        fun d => (d, .unsupportedType) := by
  obtain ⟨hdetails, hdecides⟩ := validate_value_eq_ok_iff.mp h
  rw [← hdetails, Outcome.details, List.filter_map, List.map_map, ← List.filterMap_eq_map,
    List.filterMap_filter, Outcome.rejected, List.filter_filterMap]
  refine List.filterMap_congr fun entry hentry => ?_
  obtain ⟨d, verdict⟩ := entry
  cases hdecides _ hentry with
  | unsupported hsupported =>
      have hnot : ¬ v.Supports ctx d.type := hsupported
      simp [Verdict.rejection?, hnot]
  | validated hp _ | notGranted hp _ =>
      have hsupports : v.Supports ctx d.type := ⟨_, hp⟩
      simp [Verdict.rejection?, hsupports]

structure LoosensTo (v looser : Validator) : Prop where
  registry : v.registry.LoosensTo looser.registry
  catalog : v.catalog = looser.catalog
  catalogRequired : v.catalogRequired = looser.catalogRequired

namespace LoosensTo

variable {v looser : Validator} {ctx : RequestContext} {granted : DetailSet} {d : Detail}

theorem exists_supportedBy (h : v.LoosensTo looser) {type : String} {p : Processor}
    (hp : v.SupportedBy ctx type p) : ∃ q, looser.SupportedBy ctx type q ∧ p.LoosensTo q := by
  obtain ⟨hregistered, hdeclared⟩ := hp
  rw [h.catalog, h.catalogRequired] at hdeclared
  obtain ⟨q, hq, hpq⟩ := h.registry.exists_find? hregistered
  exact ⟨q, ⟨hq, hdeclared⟩, hpq⟩

theorem supports_iff (h : v.LoosensTo looser) {type : String} :
    v.Supports ctx type ↔ looser.Supports ctx type := by
  constructor
  · rintro ⟨p, hp⟩
    obtain ⟨q, hq, -⟩ := h.exists_supportedBy hp
    exact ⟨q, hq⟩
  · rintro ⟨q, hregistered, hdeclared⟩
    rw [← h.catalog, ← h.catalogRequired] at hdeclared
    have hsome : (v.registry.find? type).isSome = true := by
      rw [h.registry.isSome_find?, hregistered, Option.isSome_some]
    obtain ⟨p, hp⟩ := Option.isSome_iff_exists.mp hsome
    exact ⟨p, hp, hdeclared⟩

theorem exists_decides (h : v.LoosensTo looser) {verdict : Verdict}
    (hd : v.Decides ctx granted d verdict) :
    ∃ verdict', looser.Decides ctx granted d verdict' ∧
      (verdict = .validated → verdict' = .validated) := by
  cases hd with
  | unsupported hsupported =>
      exact ⟨_, .unsupported fun hlooser => hsupported (h.supports_iff.mpr hlooser), id⟩
  | validated hp hjudge =>
      obtain ⟨q, hq, hpq⟩ := h.exists_supportedBy hp
      obtain ⟨answer', hanswer', hyes⟩ := hpq.exists_judge_ofType hjudge
      exact ⟨_, .validated hq (hyes rfl ▸ hanswer'), id⟩
  | notGranted hp hjudge =>
      obtain ⟨q, hq, hpq⟩ := h.exists_supportedBy hp
      obtain ⟨answer', hanswer', -⟩ := hpq.exists_judge_ofType hjudge
      -- the fields of a looser rule are not compared, so it may cover what the other one does not
      cases answer' with
      | true => exact ⟨_, .validated hq hanswer', fun _ => rfl⟩
      | false => exact ⟨_, .notGranted hq hanswer', id⟩

theorem exists_validate_ok (h : v.LoosensTo looser) {requested : DetailSet}
    (hok : ∃ o, (v.validate ctx requested granted).value = .ok o) :
    ∃ o, (looser.validate ctx requested granted).value = .ok o := by
  rw [exists_validate_ok_iff] at hok ⊢
  intro d hd
  obtain ⟨verdict, hverdict⟩ := not_failsOn_iff.mp (hok d hd)
  obtain ⟨verdict', hverdict', -⟩ := h.exists_decides hverdict
  exact not_failsOn_iff.mpr ⟨verdict', hverdict'⟩

end LoosensTo

theorem structural_refines_typeOnly {s looser : StaticRules}
    (hrules : List.Forall₂ TypeRule.LoosensTo s.rules looser.rules) (r : Registry)
    (later : List Registration) (catalog : Catalog) (catalogRequired : Bool)
    (ctx : RequestContext) (requested granted : DetailSet) {o : Outcome}
    (h : ((Validator.mk (r.configuredWith s later) catalog catalogRequired).validate ctx requested
      granted).value = .ok o) :
    ∃ o', ((Validator.mk (r.configuredWith looser later) catalog catalogRequired).validate ctx
        requested granted).value = .ok o' ∧
      (o'.rejected.filter fun entry => entry.2 = .unsupportedType) =
        (o.rejected.filter fun entry => entry.2 = .unsupportedType) ∧
      o.validated.toList.Sublist o'.validated.toList := by
  have hlooser : (Validator.mk (r.configuredWith s later) catalog catalogRequired).LoosensTo
      ⟨r.configuredWith looser later, catalog, catalogRequired⟩ :=
    ⟨r.loosensTo_configuredWith hrules later, rfl, rfl⟩
  obtain ⟨o', h'⟩ := hlooser.exists_validate_ok ⟨o, h⟩
  refine ⟨o', h', ?_, validated_sublist_validated h h' fun d _ hd => ?_⟩
  · rw [filter_rejected_unsupported h, filter_rejected_unsupported h']
    simp only [hlooser.supports_iff]
  · obtain ⟨verdict', hverdict', hyes⟩ := hlooser.exists_decides hd
    exact hyes rfl ▸ hverdict'

end Validator

namespace Payments

def fieldRules : StaticRules :=
  ⟨[.strict "payment" .typeOnly, .strict " " .structural, ⟨"consent", .structural, true⟩, rule]⟩

def looseRules : StaticRules :=
  ⟨[.strict "payment" .typeOnly, .strict " " .typeOnly, ⟨"consent", .structural, true⟩,
    .strict "payment" .typeOnly]⟩

def fieldOutcome : Outcome :=
  ⟨[(account, .rejected .unsupportedType), (detail ["cancel"], .validated), (consent, .validated),
    (detail ["initiate", "status"], .rejected .notGranted)]⟩

theorem fieldRules_refine_looseRules :
    List.Forall₂ TypeRule.LoosensTo fieldRules.rules looseRules.rules ∧
      ((Validator.mk (Registry.empty.configuredWith fieldRules [.single accountProcessor]) catalog
        true).validate .default requested granted).value = .ok fieldOutcome ∧
      ∃ o', ((Validator.mk (Registry.empty.configuredWith looseRules [.single accountProcessor])
          catalog true).validate .default requested granted).value = .ok o' ∧
        (o'.rejected.filter fun entry => entry.2 = .unsupportedType) =
          [(account, .unsupportedType)] ∧
        [detail ["cancel"], consent].Sublist o'.validated.toList := by
  have hrules : List.Forall₂ TypeRule.LoosensTo fieldRules.rules looseRules.rules :=
    .cons ⟨rfl, rfl, .inl rfl⟩ <| .cons ⟨rfl, rfl, .inr ⟨rfl, rfl⟩⟩ <|
      .cons ⟨rfl, rfl, .inl rfl⟩ <| .cons ⟨rfl, rfl, .inr ⟨rfl, rfl⟩⟩ .nil
  have hrun : ((Validator.mk (Registry.empty.configuredWith fieldRules
      [.single accountProcessor]) catalog true).validate .default requested granted).value =
      .ok fieldOutcome := rfl
  exact ⟨hrules, hrun, Validator.structural_refines_typeOnly hrules .empty
    [.single accountProcessor] catalog true .default requested granted hrun⟩

end Payments

end RichAuthorization
