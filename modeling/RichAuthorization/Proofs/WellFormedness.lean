import RichAuthorization.Proofs.Json
import RichAuthorization.Proofs.StaticRule
import RichAuthorization.Proofs.Validation

/-!
Well-formed details: their common fields, where present, are arrays made only of strings.
-/

namespace RichAuthorization

namespace Detail

def WellFormed (d : Detail) : Prop :=
  ∀ name ∈ stringArrayNames, ∀ v, d.field? name = some v → ∃ texts, v = Json.strings texts

theorem isSome_strings?_iff {d : Detail} {name : String} {v : Json} (h : d.field? name = some v) :
    (d.strings? name).isSome = true ↔ ∃ texts, v = Json.strings texts := by
  simp [strings?, h, Option.isSome_iff_exists, Json.strings?_eq_some_iff]

theorem misfit?_eq_none_iff_wellFormed {d : Detail} : d.misfit? = none ↔ d.WellFormed := by
  rw [misfit?_eq_none]
  refine forall₂_congr fun name _ => ?_
  constructor
  · intro h v hv
    exact (isSome_strings?_iff hv).mp (h (by simp [hv]))
  · intro h hsome
    obtain ⟨v, hv⟩ := Option.isSome_iff_exists.mp hsome
    exact (isSome_strings?_iff hv).mpr (h v hv)

end Detail

theorem TypeRule.wellFormed_of_judge {rule : TypeRule} (hrule : rule.matching = .structural)
    {granted : DetailSet} {d : Detail} {answer : Bool}
    (hgranted : ∃ g ∈ granted.toList, g.type = d.type)
    (h : rule.judge d (granted.ofType d.type) = .ok answer) : d.WellFormed := by
  have hempty := DetailSet.isEmpty_ofType_eq_false_iff.mpr hgranted
  exact Detail.misfit?_eq_none_iff_wellFormed.mp ((judge_structural_eq_ok_iff hrule hempty).mp h).1

namespace Validator

variable {v : Validator} {ctx : RequestContext} {requested granted : DetailSet} {o : Outcome}
variable {rule : TypeRule} {d : Detail}

theorem wellFormed_of_mem_validated (h : (v.validate ctx requested granted).value = .ok o)
    (hfind : v.registry.find? d.type = some rule.processor) (hrule : rule.matching = .structural)
    (hcompared : (∃ g ∈ granted.toList, g.type = d.type) ∨ rule.subsetOfEmpty = false)
    (hd : d ∈ o.validated.toList) : d.WellFormed := by
  have hjudge := judge_of_mem_validated h hfind hd
  rcases hcompared with hgranted | hstrict
  · exact TypeRule.wellFormed_of_judge hrule hgranted hjudge
  · have hgranted := ((TypeRule.judge_ofType_eq_true_iff hstrict).mp hjudge).1
    exact TypeRule.wellFormed_of_judge hrule hgranted hjudge

theorem mem_validated_of_none_granted (h : (v.validate ctx requested granted).value = .ok o)
    (hp : v.SupportedBy ctx d.type rule.processor)
    (hnone : ¬ ∃ g ∈ granted.toList, g.type = d.type) (hlenient : rule.subsetOfEmpty = true)
    (hd : d ∈ requested.toList) : d ∈ o.validated.toList := by
  have hanswer := rule.judge_ofType_of_none hnone
  exact (mem_validated_iff h).mpr ⟨hd, rule.processor, hp, hlenient ▸ hanswer⟩

theorem validated_wellFormed {type : String} {rule : TypeRule}
    (hfind : v.registry.find? type = some rule.processor) (hrule : rule.matching = .structural)
    (h : (v.validate ctx requested granted).value = .ok o) :
    ((∃ g ∈ granted.toList, g.type = type) ∨ rule.subsetOfEmpty = false →
      ∀ d ∈ o.validated.toList, d.type = type → d.WellFormed) ∧
    (¬ (∃ g ∈ granted.toList, g.type = type) → rule.subsetOfEmpty = true →
      v.SupportedBy ctx type rule.processor →
      ∀ d ∈ requested.toList, d.type = type → d ∈ o.validated.toList) := by
  constructor
  · rintro hcompared d hd rfl
    exact wellFormed_of_mem_validated h hfind hrule hcompared hd
  · rintro hnone hlenient hp d hd rfl
    exact mem_validated_of_none_granted h hp hnone hlenient hd

end Validator

namespace Payments

def lenientRule : TypeRule :=
  ⟨"payment", .structural, true⟩

def lenientValidator : Validator :=
  ⟨(Registry.empty.registerStatic ⟨[lenientRule]⟩).value.2, catalog, true⟩

def malformed : Detail :=
  (detail []).set "actions" (.string "cancel")

def malformedOutcome : Outcome :=
  ⟨[(malformed, .validated)]⟩

def cancelOutcome : Outcome :=
  ⟨[(detail ["cancel"], .validated)]⟩

theorem not_wellFormed_malformed : ¬ malformed.WellFormed := by
  rw [← Detail.misfit?_eq_none_iff_wellFormed]
  decide

theorem validated_wellFormed_lenient :
    lenientValidator.registry.find? "payment" = some lenientRule.processor ∧
      lenientRule.matching = .structural ∧
      (lenientValidator.validate .default (.ofList [detail ["cancel"]]) granted).value =
        .ok cancelOutcome ∧
      (detail ["cancel"]).WellFormed ∧
      (lenientValidator.validate .default (.ofList [malformed]) .empty).value =
        .ok malformedOutcome ∧
      malformed ∈ malformedOutcome.validated.toList := by
  have hfind : lenientValidator.registry.find? "payment" = some lenientRule.processor := rfl
  have hcancel : (lenientValidator.validate .default (.ofList [detail ["cancel"]]) granted).value =
      .ok cancelOutcome := rfl
  have hmalformed : (lenientValidator.validate .default (.ofList [malformed]) .empty).value =
      .ok malformedOutcome := rfl
  have hsupported : lenientValidator.SupportedBy .default "payment" lenientRule.processor :=
    ⟨rfl, fun _ => ⟨_, rfl, List.mem_cons_self⟩⟩
  have hwell := (Validator.validated_wellFormed hfind rfl hcancel).1
    (.inl ⟨detail ["status"], List.mem_cons_self, rfl⟩) _ (List.mem_singleton_self _) rfl
  have hlenient := (Validator.validated_wellFormed hfind rfl hmalformed).2
    (by simp [DetailSet.empty]) rfl hsupported _ (List.mem_singleton_self _) rfl
  exact ⟨hfind, rfl, hcancel, hwell, hmalformed, hlenient⟩

theorem validated_malformed :
    lenientValidator.registry.find? "payment" = some lenientRule.processor ∧
      lenientRule.matching = .structural ∧
      (lenientValidator.validate .default (.ofList [malformed]) .empty).value =
        .ok malformedOutcome ∧
      malformed ∈ malformedOutcome.validated.toList ∧ ¬ malformed.WellFormed :=
  ⟨rfl, rfl, rfl, List.mem_singleton_self _, not_wellFormed_malformed⟩

end Payments

end RichAuthorization
