import RichAuthorization.Proofs.Failure

/-!
Validation in batches: a request that is validated in two parts comes out as if it were validated at
once.
-/

namespace RichAuthorization

namespace DetailSet

def Disjoint (s t : DetailSet) : Prop :=
  ∀ d ∈ t.toList, s.contains d = false

def append (s t : DetailSet) : DetailSet :=
  t.toList.foldl insert s

theorem toList_append {s t : DetailSet} (h : s.Disjoint t) :
    (s.append t).toList = s.toList ++ t.toList := by
  apply foldl_insert_of_distinct
  refine List.pairwise_append.mpr ⟨s.distinct, t.distinct, ?_⟩
  intro d hd e he
  exact contains_eq_false.mp (h e he) d hd

end DetailSet

namespace Outcome

def append (o later : Outcome) : Outcome :=
  ⟨o.verdicts ++ later.verdicts⟩

theorem details_append (o later : Outcome) :
    (o.append later).details = o.details ++ later.details :=
  List.map_append

theorem rejected_append (o later : Outcome) :
    (o.append later).rejected = o.rejected ++ later.rejected :=
  List.filterMap_append

theorem toList_validated_append {o later : Outcome}
    (h : (o.append later).details.Pairwise fun a b => (a == b) = false) :
    (o.append later).validated.toList = o.validated.toList ++ later.validated.toList := by
  have hparts := h
  rw [details_append, List.pairwise_append] at hparts
  obtain ⟨hdetails, hlater, -⟩ := hparts
  rw [toList_validated h, toList_validated hdetails, toList_validated hlater, append,
    List.filter_append, List.map_append]

end Outcome

namespace Validator

variable {v : Validator} {ctx : RequestContext} {granted : DetailSet}

-- The induction is on the first part: whether its head fails or not, the second part is judged as if
-- nothing stood before it.
theorem judgeAll_value_append (matcher? : String → Option Matcher) (first second : List Detail) :
    (judgeAll matcher? (first ++ second)).value =
      (judgeAll matcher? first).value.bind fun earlier =>
        (judgeAll matcher? second).value.map fun later => earlier ++ later := by
  induction first with
  | nil =>
      simp only [List.nil_append, judgeAll, Traced.pure_value, Except.bind]
      cases (judgeAll matcher? second).value <;> rfl
  | cons d rest ih =>
      simp only [List.cons_append, judgeAll, Traced.bind_value]
      cases (judge matcher? d).value with
      | error e => rfl
      | ok verdict =>
          simp only [Traced.bind_value, ih]
          cases (judgeAll matcher? rest).value with
          | error e => rfl
          | ok earlier => cases (judgeAll matcher? second).value <;> rfl

theorem validate_value_append {first second : DetailSet} (h : first.Disjoint second) :
    (v.validate ctx (first.append second) granted).value =
      (v.validate ctx first granted).value.bind fun earlier =>
        (v.validate ctx second granted).value.map earlier.append := by
  simp only [validate_value, DetailSet.toList_append h, judgeAll_value_append]
  cases (judgeAll (v.matcherFor? ctx granted) first.toList).value with
  | error e => rfl
  | ok earlier =>
      cases (judgeAll (v.matcherFor? ctx granted) second.toList).value <;> rfl

theorem validated_in_batches (v : Validator) (ctx : RequestContext) (granted : DetailSet)
    {first second : DetailSet} (hdisjoint : first.Disjoint second) :
    (first.append second).toList = first.toList ++ second.toList ∧
    (∀ error, (v.validate ctx first granted).value = .error error →
      (v.validate ctx (first.append second) granted).value = .error error) ∧
    (∀ o error, (v.validate ctx first granted).value = .ok o →
      (v.validate ctx second granted).value = .error error →
      (v.validate ctx (first.append second) granted).value = .error error) ∧
    ∀ o later, (v.validate ctx first granted).value = .ok o →
      (v.validate ctx second granted).value = .ok later →
      ∃ both, (v.validate ctx (first.append second) granted).value = .ok both ∧
        both.validated.toList = o.validated.toList ++ later.validated.toList ∧
        both.rejected = o.rejected ++ later.rejected := by
  refine ⟨DetailSet.toList_append hdisjoint, ?_, ?_, ?_⟩
  · intro error hfirst
    rw [validate_value_append hdisjoint, hfirst]
    rfl
  · intro o error hfirst hsecond
    rw [validate_value_append hdisjoint, hfirst, hsecond]
    rfl
  · intro o later hfirst hsecond
    have hboth : (v.validate ctx (first.append second) granted).value = .ok (o.append later) := by
      rw [validate_value_append hdisjoint, hfirst, hsecond]
      rfl
    exact ⟨o.append later, hboth, Outcome.toList_validated_append (distinct_details hboth),
      Outcome.rejected_append o later⟩

end Validator

namespace Payments

def firstBatch : DetailSet :=
  .ofList [account, detail ["cancel"]]

def secondBatch : DetailSet :=
  .ofList [detail ["initiate", "status"], detail ["status"]]

def failingBatch : DetailSet :=
  .ofList [consent, misfitting "actions"]

def firstBatchOutcome : Outcome :=
  ⟨[(account, .rejected .unsupportedType), (detail ["cancel"], .validated)]⟩

def secondBatchOutcome : Outcome :=
  ⟨[(detail ["initiate", "status"], .rejected .notGranted), (detail ["status"], .validated)]⟩

def actionsError : ServiceError :=
  .processorFailed "payment" "StaticProcessor(structural)"
    "malformed authorization detail: 'actions' of 'payment' must be an array of strings"

theorem payments_validated_in_batches :
    firstBatch.Disjoint secondBatch ∧ firstBatch.Disjoint failingBatch ∧
      (validator.validate .default firstBatch granted).value = .ok firstBatchOutcome ∧
      (validator.validate .default secondBatch granted).value = .ok secondBatchOutcome ∧
      (validator.validate .default failingBatch granted).value = .error actionsError ∧
      (∃ both, (validator.validate .default (firstBatch.append secondBatch) granted).value =
          .ok both ∧ both.validated.toList = [detail ["cancel"], detail ["status"]] ∧
        both.rejected = [(account, .unsupportedType),
          (detail ["initiate", "status"], .notGranted)]) ∧
      (validator.validate .default (firstBatch.append failingBatch) granted).value =
        .error actionsError := by
  have hdisjoint : firstBatch.Disjoint secondBatch := by
    unfold DetailSet.Disjoint
    decide +kernel
  have hfailing : firstBatch.Disjoint failingBatch := by
    unfold DetailSet.Disjoint
    decide +kernel
  have hfirst : (validator.validate .default firstBatch granted).value = .ok firstBatchOutcome :=
    rfl
  have hsecond : (validator.validate .default secondBatch granted).value =
      .ok secondBatchOutcome := rfl
  have herror : (validator.validate .default failingBatch granted).value = .error actionsError :=
    rfl
  obtain ⟨-, -, -, hboth⟩ := Validator.validated_in_batches validator .default granted hdisjoint
  obtain ⟨-, -, hfails, -⟩ := Validator.validated_in_batches validator .default granted hfailing
  exact ⟨hdisjoint, hfailing, hfirst, hsecond, herror, hboth _ _ hfirst hsecond,
    hfails _ _ hfirst herror⟩

end Payments

end RichAuthorization
