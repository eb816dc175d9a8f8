import RichAuthorization.StaticRule

/-!
What a static rule answers, case by case: nothing granted, types alone, fields.
-/

namespace RichAuthorization

namespace Detail

theorem checkCommonFields_eq_ok {d : Detail} :
    d.checkCommonFields = .ok () ↔ d.misfit? = none := by
  simp only [checkCommonFields]
  split <;> simp_all

theorem forM_checkCommonFields_eq_ok {details : List Detail} :
    details.forM checkCommonFields = .ok () ↔ ∀ d ∈ details, d.misfit? = none := by
  induction details with
  | nil => simp [pure, Except.pure]
  | cons d rest ih =>
      change (d.checkCommonFields >>= fun _ => rest.forM checkCommonFields) = _ ↔ _
      rw [List.forall_mem_cons, ← checkCommonFields_eq_ok, ← ih]
      cases d.checkCommonFields <;> simp [bind, Except.bind]

end Detail

namespace DetailSet

variable {granted : DetailSet} {type : String}

theorem isEmpty_ofType_eq_true_iff :
    (granted.ofType type).isEmpty = true ↔ ¬ ∃ g ∈ granted.toList, g.type = type := by
  simp [isEmpty]

theorem isEmpty_ofType_eq_false_iff :
    (granted.ofType type).isEmpty = false ↔ ∃ g ∈ granted.toList, g.type = type := by
  simp [isEmpty]

end DetailSet

namespace TypeRule

theorem judge_of_isEmpty {rule : TypeRule} {granted : DetailSet} (h : granted.isEmpty = true)
    (d : Detail) : rule.judge d granted = .ok rule.subsetOfEmpty := by
  simp [judge, h]

theorem judge_ofType_of_none (rule : TypeRule) {granted : DetailSet} {d : Detail}
    (h : ¬ ∃ g ∈ granted.toList, g.type = d.type) :
    rule.judge d (granted.ofType d.type) = .ok rule.subsetOfEmpty :=
  judge_of_isEmpty (DetailSet.isEmpty_ofType_eq_true_iff.mpr h) d

theorem judge_typeOnly {rule : TypeRule} (hrule : rule.matching = .typeOnly)
    {granted : DetailSet} (h : granted.isEmpty = false) (d : Detail) :
    rule.judge d granted = .ok (granted.toList.all fun g => g.type = d.type) := by
  simp [judge, h, hrule]

theorem judge_ofType_typeOnly {rule : TypeRule} (hrule : rule.matching = .typeOnly)
    {granted : DetailSet} {d : Detail} (h : (granted.ofType d.type).isEmpty = false) :
    rule.judge d (granted.ofType d.type) = .ok true := by
  have hall : ((granted.ofType d.type).toList.all fun g => g.type = d.type) = true :=
    List.all_eq_true.mpr fun g hg => decide_eq_true (DetailSet.mem_ofType.mp hg).2
  rw [judge_typeOnly hrule h, hall]

theorem judge_structural_eq_ok_iff {rule : TypeRule} (hrule : rule.matching = .structural)
    {granted : DetailSet} (h : granted.isEmpty = false) {d : Detail} {answer : Bool} :
    rule.judge d granted = .ok answer ↔
      d.misfit? = none ∧ (∀ g ∈ granted.toList, g.misfit? = none) ∧
        (granted.toList.any fun g => g.covers d) = answer := by
  rw [← Detail.checkCommonFields_eq_ok, ← Detail.forM_checkCommonFields_eq_ok]
  simp only [judge, h, hrule, Bool.false_eq_true, if_false]
  cases d.checkCommonFields with
  | error e => simp [bind, Except.bind]
  | ok _ =>
      cases granted.toList.forM Detail.checkCommonFields with
      | error e => simp [bind, Except.bind]
      | ok _ => simp [bind, Except.bind, pure, Except.pure]

theorem exists_judge_ofType_ok_iff {rule : TypeRule} {granted : DetailSet} {d : Detail} :
    (∃ answer, rule.judge d (granted.ofType d.type) = .ok answer) ↔
      (rule.matching = .structural → (∃ g ∈ granted.toList, g.type = d.type) →
        d.misfit? = none ∧ ∀ g ∈ granted.toList, g.type = d.type → g.misfit? = none) := by
  cases h : (granted.ofType d.type).isEmpty with
  | true =>
      have hnone := DetailSet.isEmpty_ofType_eq_true_iff.mp h
      simp [judge_of_isEmpty h, hnone]
  | false =>
      have hsome := DetailSet.isEmpty_ofType_eq_false_iff.mp h
      cases hrule : rule.matching with
      | typeOnly => simp [judge_ofType_typeOnly hrule h]
      | structural =>
          simp only [judge_structural_eq_ok_iff hrule h, true_implies, hsome]
          simp

theorem judge_ofType_eq_true_iff {rule : TypeRule} (hstrict : rule.subsetOfEmpty = false)
    {granted : DetailSet} {d : Detail} :
    rule.judge d (granted.ofType d.type) = .ok true ↔
      (∃ g ∈ granted.toList, g.type = d.type) ∧
        (rule.matching = .structural →
          d.misfit? = none ∧ (∀ g ∈ granted.toList, g.type = d.type → g.misfit? = none) ∧
            ∃ g ∈ granted.toList, g.type = d.type ∧ g.covers d = true) := by
  cases h : (granted.ofType d.type).isEmpty with
  | true =>
      have hnone := DetailSet.isEmpty_ofType_eq_true_iff.mp h
      simp [judge_of_isEmpty h, hstrict, hnone]
  | false =>
      have hsome := DetailSet.isEmpty_ofType_eq_false_iff.mp h
      cases hrule : rule.matching with
      | typeOnly => simp [judge_ofType_typeOnly hrule h, hsome]
      | structural =>
          rw [judge_structural_eq_ok_iff hrule h]
          simp [hsome]

end TypeRule

namespace Registry

theorem find?_of_insert {r : Registry} {p q : Processor} (hblank : Text.isBlank p.type = false)
    {type : String} (h : (r.insert p hblank).find? type = some q) :
    q = p ∨ r.find? type = some q := by
  by_cases heq : p.type = type
  · subst heq
    rw [find?_insert_self] at h
    exact .inl (Option.some.inj h).symm
  · rw [find?_insert_of_ne r p hblank heq] at h
    exact .inr h

def Strict (r : Registry) : Prop :=
  ∀ type p, r.find? type = some p →
    ∃ rule : TypeRule, p = rule.processor ∧ rule.subsetOfEmpty = false

theorem strict_empty : empty.Strict := by
  intro type p h
  simp [find?_empty] at h

theorem Strict.insert {r : Registry} (h : r.Strict) {rule : TypeRule}
    (hrule : rule.subsetOfEmpty = false) (hblank : Text.isBlank rule.processor.type = false) :
    (r.insert rule.processor hblank).Strict := by
  intro type p hp
  rcases find?_of_insert hblank hp with rfl | hp
  · exact ⟨rule, rfl, hrule⟩
  · exact h type p hp

def Static (r : Registry) : Prop :=
  ∀ type p, r.find? type = some p → ∃ rule : TypeRule, p = rule.processor

theorem Strict.static {r : Registry} (h : r.Strict) : r.Static :=
  fun type p hp => (h type p hp).imp fun _ hrule => hrule.1

theorem static_empty : empty.Static := by
  intro type p h
  simp [find?_empty] at h

theorem Static.register {r : Registry} (h : r.Static) (rule : TypeRule) :
    (r.register rule.processor).value.2.Static := by
  cases hblank : Text.isBlank rule.processor.type with
  | true =>
      rw [register_value_of_blank r hblank]
      exact h
  | false =>
      rw [register_value_of_not_blank r hblank]
      intro type p hp
      rcases find?_of_insert hblank hp with rfl | hp
      · exact ⟨rule, rfl⟩
      · exact h type p hp

theorem registry_registerRules_cons (r : Registry) (rule : TypeRule) (rest : List TypeRule) :
    (r.registerRules (rule :: rest)).value.2 =
      ((r.register rule.processor).value.2.registerRules rest).value.2 := by
  simp only [registerRules, Traced.bind_value]
  split <;> rfl

theorem Static.registerRules {r : Registry} (h : r.Static) (rules : List TypeRule) :
    (r.registerRules rules).value.2.Static := by
  induction rules generalizing r with
  | nil => exact h
  | cons rule rest ih =>
      rw [registry_registerRules_cons]
      exact ih (h.register rule)

theorem Static.registerStatic {r : Registry} (h : r.Static) (rules : StaticRules) :
    (r.registerStatic rules).value.2.Static := by
  simp only [Registry.registerStatic, Traced.bind_value]
  exact h.registerRules rules.rules

end Registry

end RichAuthorization
