import RichAuthorization.Proofs.WellFormedness

/-!
The verdict of a structural rule, and why the order of the grant has no part in it.
-/

namespace RichAuthorization

namespace TypeRule

variable {rule : TypeRule} {granted reordered : DetailSet} {d : Detail}

theorem judge_structural_eq_ok_iff_wellFormed (hrule : rule.matching = .structural)
    (hgranted : granted.isEmpty = false) {answer : Bool} :
    rule.judge d granted = .ok answer ↔
      d.WellFormed ∧ (∀ g ∈ granted.toList, g.WellFormed) ∧
        (answer = true ↔ ∃ g ∈ granted.toList, g.covers d = true) := by
  simp only [judge_structural_eq_ok_iff hrule hgranted, Detail.misfit?_eq_none_iff_wellFormed]
  refine and_congr_right fun _ => and_congr_right fun _ => ?_
  rw [← List.any_eq_true, ← Bool.eq_iff_iff, eq_comm]

theorem exists_judge_structural_ok_iff (hrule : rule.matching = .structural)
    (hgranted : granted.isEmpty = false) :
    (∃ answer, rule.judge d granted = .ok answer) ↔
      d.WellFormed ∧ ∀ g ∈ granted.toList, g.WellFormed := by
  simp only [judge_structural_eq_ok_iff hrule hgranted, Detail.misfit?_eq_none_iff_wellFormed]
  simp

theorem exists_judge_structural_error_iff (hrule : rule.matching = .structural)
    (hgranted : granted.isEmpty = false) :
    (∃ e, rule.judge d granted = .error e) ↔
      ¬ d.WellFormed ∨ ∃ g ∈ granted.toList, ¬ g.WellFormed := by
  rw [Except.exists_error_iff, exists_judge_structural_ok_iff hrule hgranted]
  simp only [Classical.not_and_iff_not_or_not, Classical.not_forall, exists_prop]

theorem judge_structural_eq_ok_iff_of_perm (hrule : rule.matching = .structural)
    (hgranted : granted.isEmpty = false) (h : reordered.toList.Perm granted.toList)
    {answer : Bool} :
    rule.judge d reordered = .ok answer ↔ rule.judge d granted = .ok answer := by
  have hreordered : reordered.isEmpty = false := h.isEmpty_eq.trans hgranted
  simp only [judge_structural_eq_ok_iff_wellFormed hrule hgranted,
    judge_structural_eq_ok_iff_wellFormed hrule hreordered, h.mem_iff]

theorem structural_verdict_exact (hrule : rule.matching = .structural)
    (hgranted : granted.isEmpty = false) (d : Detail) :
    ((∃ e, rule.processor.judge d granted = .error e) ↔
      ¬ d.WellFormed ∨ ∃ g ∈ granted.toList, ¬ g.WellFormed) ∧
    (d.WellFormed → (∀ g ∈ granted.toList, g.WellFormed) →
      ∃ answer, rule.processor.judge d granted = .ok answer ∧
        (answer = true ↔ ∃ g ∈ granted.toList, g.covers d = true)) ∧
    ∀ reordered : DetailSet, reordered.toList.Perm granted.toList →
      ((∃ e, rule.processor.judge d reordered = .error e) ↔
        ∃ e, rule.processor.judge d granted = .error e) ∧
      ∀ answer, rule.processor.judge d reordered = .ok answer ↔
        rule.processor.judge d granted = .ok answer := by
  refine ⟨exists_judge_structural_error_iff hrule hgranted, ?_, ?_⟩
  · intro hd hall
    obtain ⟨answer, hanswer⟩ := (exists_judge_structural_ok_iff hrule hgranted).mpr ⟨hd, hall⟩
    have hexact := (judge_structural_eq_ok_iff_wellFormed hrule hgranted).mp hanswer
    exact ⟨answer, hanswer, hexact.2.2⟩
  · intro reordered hperm
    have hok (answer : Bool) : rule.judge d reordered = .ok answer ↔
        rule.judge d granted = .ok answer :=
      judge_structural_eq_ok_iff_of_perm hrule hgranted hperm
    refine ⟨?_, hok⟩
    rw [Except.exists_error_iff, Except.exists_error_iff]
    exact not_congr (exists_congr hok)

end TypeRule

namespace Payments

def spoiledGrant : DetailSet :=
  .ofList [detail ["initiate", "cancel"], detail ["status"], malformed]

def reversedSpoiledGrant : DetailSet :=
  .ofList [malformed, detail ["status"], detail ["initiate", "cancel"]]

def reversedGrant : DetailSet :=
  .ofList [detail ["initiate", "cancel"], detail ["status"]]

theorem grants_in_reverse :
    rule.matching = .structural ∧ granted.isEmpty = false ∧
      reversedGrant.toList.Perm granted.toList ∧
      rule.processor.judge (detail ["cancel"]) reversedGrant = .ok true ∧
      spoiledGrant.isEmpty = false ∧
      reversedSpoiledGrant.toList.Perm spoiledGrant.toList ∧ ¬ malformed.WellFormed ∧
      (∃ e, rule.processor.judge (detail ["cancel"]) spoiledGrant = .error e) ∧
      ∃ e, rule.processor.judge (detail ["cancel"]) reversedSpoiledGrant = .error e := by
  have hrule : rule.matching = .structural := rfl
  have hgranted : granted.isEmpty = false := rfl
  have hspoiled : spoiledGrant.isEmpty = false := rfl
  have hperm : reversedGrant.toList.Perm granted.toList := List.reverse_perm granted.toList
  have hspoiledPerm : reversedSpoiledGrant.toList.Perm spoiledGrant.toList :=
    List.reverse_perm spoiledGrant.toList
  have hmem : malformed ∈ spoiledGrant.toList := .tail _ (.tail _ (.head _))
  obtain ⟨-, -, hanswer⟩ :=
    TypeRule.structural_verdict_exact hrule hgranted (detail ["cancel"])
  obtain ⟨herror, -, hreversed⟩ :=
    TypeRule.structural_verdict_exact hrule hspoiled (detail ["cancel"])
  have hfails := herror.mpr (.inr ⟨malformed, hmem, not_wellFormed_malformed⟩)
  exact ⟨hrule, hgranted, hperm, ((hanswer reversedGrant hperm).2 true).mpr rfl, hspoiled,
    hspoiledPerm, not_wellFormed_malformed, hfails,
    (hreversed reversedSpoiledGrant hspoiledPerm).1.mpr hfails⟩

end Payments

end RichAuthorization
