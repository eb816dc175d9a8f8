import Mathlib.Data.List.Induction
import RichAuthorization.Proofs.RoundTrip
import RichAuthorization.Proofs.Validation

/-!
Sets of details list the first occurrences of what went into them.
-/

namespace RichAuthorization

section

variable {α β : Type _} [BEq α] [BEq β]

/-- The items that equal none of those before them, where `earlier` stand before them all. -/
def newAfter (earlier : List α) : List α → List α
  | [] => []
  | a :: rest =>
    if earlier.any (· == a) then newAfter (earlier ++ [a]) rest
    else a :: newAfter (earlier ++ [a]) rest

def firstOccurrences (items : List α) : List α :=
  newAfter [] items

theorem newAfter_append (items more earlier : List α) :
    newAfter earlier (items ++ more) =
      newAfter earlier items ++ newAfter (earlier ++ items) more := by
  induction items generalizing earlier with
  | nil => simp [newAfter]
  | cons a rest ih =>
      simp only [List.cons_append, newAfter, ih]
      split <;> simp

theorem firstOccurrences_concat (items : List α) (a : α) :
    firstOccurrences (items ++ [a]) =
      if items.any (· == a) then firstOccurrences items else firstOccurrences items ++ [a] := by
  rw [firstOccurrences, newAfter_append, List.nil_append, newAfter]
  split
  · exact List.append_nil _
  · rfl

theorem any_newAfter [PartialEquivBEq α] (a : α) (items earlier : List α) :
    (earlier ++ newAfter earlier items).any (· == a) = (earlier ++ items).any (· == a) := by
  induction items generalizing earlier with
  | nil => rfl
  | cons b rest ih =>
      have hrest := ih (earlier ++ [b])
      simp only [newAfter]
      split
      · next hseen =>
        obtain ⟨e, he, heb⟩ := List.any_eq_true.mp hseen
        -- What equals the item that is dropped equals the one that stands for it.
        have hstand : earlier.any (· == a) = (earlier.any (· == a) || b == a) := by
          rw [Bool.eq_iff_iff, Bool.or_eq_true]
          refine ⟨.inl, ?_⟩
          rintro (h | h)
          · exact h
          · exact List.any_eq_true.mpr ⟨e, he, PartialEquivBEq.trans heb h⟩
        simp only [List.any_append, List.any_cons, List.any_nil, Bool.or_false] at hrest ⊢
        rw [← Bool.or_assoc, ← hrest, ← hstand]
      · simpa using hrest

theorem any_firstOccurrences [PartialEquivBEq α] (items : List α) (a : α) :
    (firstOccurrences items).any (· == a) = items.any (· == a) :=
  any_newAfter a items []

theorem filter_newAfter {p : α → Bool} (hp : ∀ a b, (a == b) = true → p a = p b)
    (items earlier : List α) :
    (newAfter earlier items).filter p = newAfter (earlier.filter p) (items.filter p) := by
  induction items generalizing earlier with
  | nil => rfl
  | cons a rest ih =>
      have hrest := ih (earlier ++ [a])
      cases ha : p a with
      | false =>
          simp only [newAfter, List.filter_append, List.filter_cons, ha, Bool.false_eq_true,
            if_false, List.filter_nil, List.append_nil] at hrest ⊢
          rw [← hrest]
          split <;> simp [ha]
      | true =>
          have hseen : (earlier.filter p).any (· == a) = earlier.any (· == a) := by
            rw [List.any_filter, Bool.eq_iff_iff, List.any_eq_true, List.any_eq_true]
            refine exists_congr fun e => and_congr_right fun _ => ?_
            rw [Bool.and_eq_true, and_iff_right_of_imp fun hea => (hp e a hea).trans ha]
          simp only [newAfter, List.filter_append, List.filter_cons, ha, if_true, List.filter_nil,
            hseen] at hrest ⊢
          rw [← hrest]
          split <;> simp [ha]

theorem firstOccurrences_filter {p : α → Bool} (hp : ∀ a b, (a == b) = true → p a = p b)
    (items : List α) : firstOccurrences (items.filter p) = (firstOccurrences items).filter p :=
  (filter_newAfter hp items []).symm

theorem map_newAfter {f : α → β} (hf : ∀ a b, (f a == f b) = (a == b)) (items earlier : List α) :
    (newAfter earlier items).map f = newAfter (earlier.map f) (items.map f) := by
  induction items generalizing earlier with
  | nil => rfl
  | cons a rest ih =>
      have hrest := ih (earlier ++ [a])
      have hseen : (earlier.map f).any (· == f a) = earlier.any (· == a) := by
        simp only [List.any_map, Function.comp_def, hf]
      simp only [newAfter, List.map_cons, hseen, List.map_append, List.map_nil] at hrest ⊢
      split
      · exact hrest
      · rw [List.map_cons, hrest]

theorem firstOccurrences_map {f : α → β} (hf : ∀ a b, (f a == f b) = (a == b)) (items : List α) :
    firstOccurrences (items.map f) = (firstOccurrences items).map f :=
  (map_newAfter hf items []).symm

end

open Json (Decoder Document Place)

namespace DetailSet

theorem ofList_concat (details : List Detail) (d : Detail) :
    ofList (details ++ [d]) = (ofList details).insert d :=
  List.foldl_concat insert empty d details

theorem toList_ofList (details : List Detail) :
    (ofList details).toList = firstOccurrences details := by
  induction details using List.reverseRecOn with
  | nil => rfl
  | append_singleton before d ih =>
      have hcontains : (ofList before).contains d = before.any (· == d) := by
        rw [contains, ih, any_firstOccurrences]
      rw [ofList_concat, firstOccurrences_concat, ← hcontains]
      cases hnew : (ofList before).contains d with
      | true => rw [insert_of_contains hnew, ih, if_pos rfl]
      | false =>
          rw [toList_insert_of_not_contains hnew, ih]
          rfl

theorem ofType_ofList (details : List Detail) (type : String) :
    (ofList details).ofType type = ofList (details.filter fun d => d.type = type) := by
  apply eq_of_toList_eq
  have htype : ∀ a b : Detail, (a == b) = true → decide (a.type = type) = decide (b.type = type) :=
    fun a b h => by rw [(Detail.beq_iff.mp h).1]
  rw [toList_ofType, toList_ofList, toList_ofList, firstOccurrences_filter htype]

inductive Collected : List Detail → DetailSet → Prop
  | empty : Collected [] .empty
  | ofList (details : List Detail) : Collected details (.ofList details)
  | read {place : Place} {written : Document} {details : List Detail} {s : DetailSet} :
      Decoder.list Detail.decode place written = .ok details → decode place written = .ok s →
      Collected details s
  | ofType {details : List Detail} {s : DetailSet} (type : String) :
      Collected details s → Collected (details.filter fun d => d.type = type) (s.ofType type)
  | insert {details : List Detail} {s : DetailSet} (d : Detail) :
      Collected details s → Collected (details ++ [d]) (s.insertNew d).2

theorem Collected.eq_ofList {details : List Detail} {s : DetailSet} (h : Collected details s) :
    s = .ofList details := by
  induction h with
  | empty => rfl
  | ofList details => rfl
  | read hdetails hread =>
      rw [decode, hdetails] at hread
      exact (Except.ok.inj hread).symm
  | ofType type _ ih => rw [ih, ofType_ofList]
  | insert d _ ih => rw [ih, insertNew_eq, ofList_concat]

theorem foldl_insertNew (details : List Detail) :
    details.foldl (fun s d => (s.insertNew d).2) empty = ofList details := by
  simp only [insertNew_eq, ofList]

theorem lists_first_occurrences :
    (∀ details s, Collected details s →
      s.toList = firstOccurrences details ∧ s.toList.Pairwise fun a b => (a == b) = false) ∧
    (∀ details, (ofList details).toList = firstOccurrences details ∧
      details.foldl (fun s d => (s.insertNew d).2) empty = ofList details ∧
      Decoder.ofJson decode (.array (details.map Detail.toJson)) = .ok (ofList details)) ∧
    (∀ (s : DetailSet) (d : Detail), ((s.insertNew d).1 = true ↔ s.contains d = false) ∧
      ((s.insertNew d).1 = true → (s.insertNew d).2.toList = s.toList ++ [d]) ∧
      ((s.insertNew d).1 = false → (s.insertNew d).2 = s)) ∧
    (∀ s, ofList s.toList = s) ∧
    ∀ details type,
      (ofList details).ofType type = ofList (details.filter fun d => d.type = type) := by
  refine ⟨?_, ?_, ?_, ofList_toList, ofType_ofList⟩
  · intro details s h
    obtain rfl := h.eq_ofList
    exact ⟨toList_ofList details, (ofList details).distinct⟩
  · intro details
    refine ⟨toList_ofList details, foldl_insertNew details, ?_⟩
    have hread := Detail.readsBack_toJson.list ⟨.value, 0⟩ (by decide) details
    rw [Decoder.ofJson, decode, hread]
    rfl
  · intro s d
    rw [insertNew_eq]
    refine ⟨by simp, ?_, ?_⟩
    · intro hnew
      exact toList_insert_of_not_contains (by simpa using hnew)
    · intro hold
      exact insert_of_contains (by simpa using hold)

end DetailSet

namespace Payments

def amounting (n : Json.Number) : Detail :=
  (detail ["initiate"]).set "amount" (.number n)

def repeated : List Detail :=
  [amounting (.int 0), account, amounting (.double (.zero false)), account, amounting (.int 0),
    amounting (.double (.zero true))]

theorem payments_listed_once :
    DetailSet.Collected ((repeated ++ [account]).filter fun d => d.type = "payment")
        (((DetailSet.ofList repeated).insertNew account).2.ofType "payment") ∧
      (((DetailSet.ofList repeated).insertNew account).2.ofType "payment").toList =
        [amounting (.int 0), amounting (.double (.zero false))] ∧
      ((DetailSet.ofList repeated).insertNew account).1 = false ∧
      ((DetailSet.ofList repeated).insertNew account).2 = .ofList repeated ∧
      ((DetailSet.ofList repeated).insertNew consent).1 = true ∧
      ((DetailSet.ofList repeated).insertNew consent).2.toList =
        (DetailSet.ofList repeated).toList ++ [consent] := by
  have hcollected := DetailSet.Collected.ofType "payment" (.insert account (.ofList repeated))
  obtain ⟨hlists, -, hinsert, -⟩ := DetailSet.lists_first_occurrences
  have hold : ((DetailSet.ofList repeated).insertNew account).1 = false := rfl
  have hnew : ((DetailSet.ofList repeated).insertNew consent).1 = true := rfl
  exact ⟨hcollected, (hlists _ _ hcollected).1, hold, (hinsert _ account).2.2 hold, hnew,
    (hinsert _ consent).2.1 hnew⟩

end Payments

end RichAuthorization
