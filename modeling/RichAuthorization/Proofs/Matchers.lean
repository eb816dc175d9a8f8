import RichAuthorization.Validation

/-!
The matchers that a request resolves to hold what is found for each of its types alone, so
validation judges each detail as if its matcher were looked up for it.
-/

namespace RichAuthorization

namespace Matcher

theorem judge_value (m : Matcher) (d : Detail) :
    (m.judge d).value =
      match m.processor.judge d m.reference with
      | .ok true => .ok .validated
      | .ok false => .ok (.rejected .notGranted)
      | .error e => .error (.processorFailed d.type m.processor.name e.message) := by
  simp only [judge, Traced.bind_value, Traced.ask_value]
  cases m.processor.judge d m.reference with
  | error e => rfl
  | ok answer => cases answer <;> rfl

theorem questions_judge (m : Matcher) (d : Detail) :
    (m.judge d).questions = [.processor m.processor d m.reference] := by
  simp only [judge, Traced.questions_bind, Traced.questions_ask, Traced.ask_value]
  cases m.processor.judge d m.reference with
  | error e => rfl
  | ok answer => cases answer <;> rfl

end Matcher

namespace Validator

def matcherFor? (v : Validator) (ctx : RequestContext) (granted : DetailSet) (type : String) :
    Option Matcher :=
  ((v.registry.find? type).filter fun _ => allows (v.allowedTypes ctx).value type).map fun p =>
    ⟨p, granted.ofType type⟩

variable {v : Validator} {ctx : RequestContext} {granted : DetailSet}

theorem find?_resolve (matchers : NameMap Matcher) (type other : String) :
    (v.resolve (v.allowedTypes ctx).value granted matchers type).value.find? other =
      if other = type then (v.matcherFor? ctx granted other).or (matchers.find? other)
      else matchers.find? other := by
  by_cases hother : other = type
  · subst hother
    rw [if_pos rfl]
    cases hfind : v.registry.find? other with
    | none => simp [resolve, matcherFor?, hfind]
    | some p =>
        cases hallows : allows (v.allowedTypes ctx).value other with
        | false => simp [resolve, matcherFor?, hfind, hallows, Option.filter]
        | true =>
            simp [resolve, matcherFor?, hfind, hallows, Option.filter, NameMap.find?_insert_self]
  · rw [if_neg hother]
    cases hfind : v.registry.find? type with
    | none => simp [resolve, hfind]
    | some p =>
        cases hallows : allows (v.allowedTypes ctx).value type with
        | false => simp [resolve, hfind, hallows]
        | true =>
            simp only [resolve, hfind, hallows, if_true, Traced.pure_value]
            exact NameMap.find?_insert_of_ne (Ne.symm hother) matchers _

-- The induction is on the types that are left, for any matchers found so far: a type that comes
-- again finds what it found before.
theorem find?_resolveAll (matchers : NameMap Matcher) (types : List String) (type : String) :
    (v.resolveAll (v.allowedTypes ctx).value granted matchers types).value.find? type =
      if type ∈ types then (v.matcherFor? ctx granted type).or (matchers.find? type)
      else matchers.find? type := by
  induction types generalizing matchers with
  | nil => rfl
  | cons head rest ih =>
      simp only [resolveAll, Traced.bind_value, ih, find?_resolve, List.mem_cons]
      by_cases hhead : type = head
      · simp [hhead, ← Option.or_assoc]
      · simp [hhead]

theorem questions_resolve (allowed : Option (List String)) (matchers : NameMap Matcher)
    (type : String) : (v.resolve allowed granted matchers type).questions = [] := by
  simp only [resolve]
  split
  · simp
  · split <;> simp

theorem questions_resolveAll (allowed : Option (List String)) (matchers : NameMap Matcher)
    (types : List String) : (v.resolveAll allowed granted matchers types).questions = [] := by
  induction types generalizing matchers with
  | nil => rfl
  | cons type rest ih =>
      simp only [resolveAll, Traced.questions_bind, questions_resolve, ih, List.append_nil]

theorem judgeAll_congr {matcher? matcher?' : String → Option Matcher} {details : List Detail}
    (h : ∀ d ∈ details, matcher? d.type = matcher?' d.type) :
    judgeAll matcher? details = judgeAll matcher?' details := by
  induction details with
  | nil => rfl
  | cons d rest ih =>
      obtain ⟨hd, hrest⟩ := List.forall_mem_cons.mp h
      simp only [judgeAll, judge, hd, ih hrest]

theorem judgeAll_resolveAll (requested : DetailSet) :
    judgeAll (v.resolveAll (v.allowedTypes ctx).value granted .empty requested.types).value.find?
        requested.toList =
      judgeAll (v.matcherFor? ctx granted) requested.toList := by
  refine judgeAll_congr fun d hd => ?_
  rw [find?_resolveAll, if_pos (DetailSet.type_mem_types hd), NameMap.find?_empty, Option.or_none]

end Validator

end RichAuthorization
