import Mathlib.Data.List.Forall2
import RichAuthorization.Proofs.Failure

/-!
What validation asks others, question by question.
-/

namespace RichAuthorization

theorem Registry.questions_supportedTypes (r : Registry) (catalog : Catalog)
    (ctx : RequestContext) :
    (r.supportedTypes catalog ctx).questions = [.catalog ctx.tenant ""] := by
  simp only [supportedTypes, Traced.questions_bind, Traced.questions_ask, Traced.ask_value]
  cases catalog.list "" ctx.tenant <;> simp

namespace Validator

inductive Reaches (v : Validator) (ctx : RequestContext) (granted : DetailSet) :
    List Detail → List Detail → Prop
  | all {details : List Detail} :
      (∀ d ∈ details, ¬ v.FailsOn ctx granted d) →
      Reaches v ctx granted details details
  | failing {earlier later : List Detail} {d : Detail} :
      (∀ prior ∈ earlier, ¬ v.FailsOn ctx granted prior) → v.FailsOn ctx granted d →
      Reaches v ctx granted (earlier ++ d :: later) (earlier ++ [d])

inductive AsksAbout (v : Validator) (ctx : RequestContext) (granted : DetailSet) (d : Detail) :
    Question → Prop
  | processor {p : Processor} {reference : DetailSet} : v.SupportedBy ctx d.type p →
      p.type = d.type → reference.toList = granted.toList.filter (fun g => g.type = d.type) →
      AsksAbout v ctx granted d (.processor p d reference)

section

variable {v : Validator} {ctx : RequestContext} {granted : DetailSet}

theorem SupportedBy.type_eq {type : String} {p : Processor} (h : v.SupportedBy ctx type p) :
    p.type = type :=
  (Registry.type_of_find? h.registered).1

theorem Reaches.cons_of_failsOn {d : Detail} (h : v.FailsOn ctx granted d) (rest : List Detail) :
    v.Reaches ctx granted (d :: rest) [d] := by
  have hnone : ∀ prior ∈ [], ¬ v.FailsOn ctx granted prior := List.forall_mem_nil _
  exact .failing hnone h

theorem Reaches.cons {d : Detail} {rest reached : List Detail}
    (hd : ¬ v.FailsOn ctx granted d) (h : v.Reaches ctx granted rest reached) :
    v.Reaches ctx granted (d :: rest) (d :: reached) := by
  cases h with
  | all hrest => exact .all (List.forall_mem_cons.mpr ⟨hd, hrest⟩)
  | @failing earlier _ _ hearlier hfails =>
      have hearlier' : ∀ prior ∈ d :: earlier, ¬ v.FailsOn ctx granted prior :=
        List.forall_mem_cons.mpr ⟨hd, hearlier⟩
      exact .failing hearlier' hfails

theorem questions_allowedTypes :
    (v.allowedTypes ctx).questions =
      if v.catalogRequired = true then [.catalog ctx.tenant ""] else [] := by
  simp only [allowedTypes]
  split
  · rw [Traced.questions_map, Registry.questions_supportedTypes]
  · rfl

theorem questions_judge_of_not_supported {d : Detail} (h : ¬ v.Supports ctx d.type) :
    (judge (v.matcherFor? ctx granted) d).questions = [] := by
  rw [judge_of_not_supports h, Traced.questions_pure]

theorem questions_judge_of_supportedBy {d : Detail} {p : Processor}
    (h : v.SupportedBy ctx d.type p) :
    (judge (v.matcherFor? ctx granted) d).questions =
      [.processor p d (granted.ofType d.type)] := by
  rw [judge_of_supportedBy h, Matcher.questions_judge]

theorem forall₂_asksAbout_judge (d : Detail) :
    List.Forall₂ (v.AsksAbout ctx granted) ([d].filter fun d => v.Supports ctx d.type)
      (judge (v.matcherFor? ctx granted) d).questions := by
  by_cases h : v.Supports ctx d.type
  · obtain ⟨p, hp⟩ := h
    have hsupports : v.Supports ctx d.type := ⟨p, hp⟩
    rw [questions_judge_of_supportedBy hp]
    simp only [List.filter_cons, hsupports, decide_true, if_true, List.filter_nil]
    exact .cons (.processor hp hp.type_eq (granted.toList_ofType d.type)) .nil
  · rw [questions_judge_of_not_supported h]
    simp [h]

-- The induction is on the request: the questions about the head come first, and those about the rest
-- follow only where the head gets a verdict.
theorem exists_reaches_judgeAll (details : List Detail) :
    ∃ reached, v.Reaches ctx granted details reached ∧
      List.Forall₂ (v.AsksAbout ctx granted) (reached.filter fun d => v.Supports ctx d.type)
        (judgeAll (v.matcherFor? ctx granted) details).questions := by
  induction details with
  | nil => exact ⟨[], .all (List.forall_mem_nil _), .nil⟩
  | cons d rest ih =>
      have hd : List.Forall₂ (v.AsksAbout ctx granted) _ _ := forall₂_asksAbout_judge d
      simp only [judgeAll, Traced.questions_bind]
      cases hjudge : (judge (v.matcherFor? ctx granted) d).value with
      | error e =>
          have hfails : v.FailsOn ctx granted d := ⟨e, judge_value_eq_error_iff.mp hjudge⟩
          refine ⟨[d], .cons_of_failsOn hfails rest, ?_⟩
          simpa using hd
      | ok verdict =>
          have hdecides : ¬ v.FailsOn ctx granted d :=
            not_failsOn_iff.mpr ⟨verdict, judge_value_eq_ok_iff.mp hjudge⟩
          obtain ⟨reached, hreached, hrest⟩ := ih
          refine ⟨d :: reached, hreached.cons hdecides, ?_⟩
          have happend : List.Forall₂ (v.AsksAbout ctx granted)
              ((d :: reached).filter fun d => v.Supports ctx d.type)
              ((judge (v.matcherFor? ctx granted) d).questions ++
                (judgeAll (v.matcherFor? ctx granted) rest).questions) := by
            rw [← List.singleton_append, List.filter_append]
            exact List.rel_append hd hrest
          simp only [Traced.questions_bind]
          cases (judgeAll (v.matcherFor? ctx granted) rest).value <;>
            simpa only [Traced.questions_pure, List.append_nil] using happend

variable {requested : DetailSet}

theorem questions_validate_of_isEmpty (h : requested.isEmpty = true) :
    (v.validate ctx requested granted).questions = [] := by
  simp [validate, h]

theorem questions_validate (h : requested.isEmpty = false) :
    (v.validate ctx requested granted).questions = (v.allowedTypes ctx).questions ++
      (judgeAll (v.matcherFor? ctx granted) requested.toList).questions := by
  simp only [validate, h, Bool.false_eq_true, if_false, Traced.questions_bind,
    questions_resolveAll, judgeAll_resolveAll, List.nil_append]
  cases (judgeAll (v.matcherFor? ctx granted) requested.toList).value <;> simp

end

theorem validate_asks_exactly (v : Validator) (ctx : RequestContext)
    (requested granted : DetailSet) :
    ∃ reached asked, v.Reaches ctx granted requested.toList reached ∧
      (v.validate ctx requested granted).questions =
        (if requested.isEmpty = false ∧ v.catalogRequired = true then [.catalog ctx.tenant ""]
          else []) ++ asked ∧
      List.Forall₂ (v.AsksAbout ctx granted) (reached.filter fun d => v.Supports ctx d.type)
        asked := by
  cases hempty : requested.isEmpty with
  | true =>
      have hnil : requested.toList = [] := List.isEmpty_iff.mp hempty
      rw [hnil]
      refine ⟨[], [], .all (List.forall_mem_nil _), ?_, .nil⟩
      simp [questions_validate_of_isEmpty hempty]
  | false =>
      obtain ⟨reached, hreached, hasked⟩ := exists_reaches_judgeAll requested.toList
      refine ⟨reached, _, hreached, ?_, hasked⟩
      simp only [questions_validate hempty, questions_allowedTypes, true_and]

end Validator

namespace Payments

example : (validator.validate .default (.ofList [account, detail ["cancel"],
      misfitting "actions", detail ["status"]]) granted).questions =
    [.catalog "carbon.super" "",
      .processor rule.processor (detail ["cancel"]) granted,
      .processor rule.processor (misfitting "actions") granted] := rfl

end Payments

end RichAuthorization
