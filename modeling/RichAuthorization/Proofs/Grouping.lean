import Mathlib.Algebra.GroupWithZero.Nat
import Mathlib.Data.List.Induction
import Mathlib.Data.List.Perm.Basic
import RichAuthorization.Proofs.StaticRule
import RichAuthorization.Proofs.Validation

/-!
Sets of details grouped by type.
-/

namespace RichAuthorization

section

variable {α κ : Type _} [DecidableEq κ]

theorem eraseDups_concat (names : List κ) (a : κ) :
    (names ++ [a]).eraseDups = if a ∈ names then names.eraseDups else names.eraseDups ++ [a] := by
  rw [List.eraseDups_append]
  split
  · next h => simp [List.removeAll, h]
  · next h => simp [List.removeAll, h, List.eraseDups_cons]

-- A name that is appended and new has the greatest place of all; one that is old changes nothing.
theorem pairwise_idxOf_eraseDups (names : List κ) :
    names.eraseDups.Pairwise fun a b => names.idxOf a < names.idxOf b := by
  induction names using List.reverseRecOn with
  | nil => exact .nil
  | append_singleton names a ih =>
      have hkept : ∀ b ∈ names.eraseDups, (names ++ [a]).idxOf b = names.idxOf b := fun b hb =>
        List.idxOf_append_of_mem (List.mem_eraseDups.mp hb)
      have hbefore : names.eraseDups.Pairwise fun b c =>
          (names ++ [a]).idxOf b < (names ++ [a]).idxOf c := by
        refine ih.imp_of_mem ?_
        intro b c hb hc hlt
        rwa [hkept b hb, hkept c hc]
      rw [eraseDups_concat]
      split
      · exact hbefore
      · next hnew =>
        refine List.pairwise_append.mpr ⟨hbefore, List.pairwise_singleton _ _, ?_⟩
        intro b hb c hc
        obtain rfl := List.mem_singleton.mp hc
        rw [hkept b hb, List.idxOf_append_of_notMem hnew, List.idxOf_cons_self]
        exact List.idxOf_lt_length_of_mem (List.mem_eraseDups.mp hb)

theorem nodup_eraseDups (names : List κ) : names.eraseDups.Nodup := by
  refine (pairwise_idxOf_eraseDups names).imp ?_
  rintro a b hlt rfl
  exact Nat.lt_irrefl _ hlt

-- The induction is on the names: what has the first of them is split off, and none of it has one of
-- the others.
theorem flatMap_filter_perm (key : α → κ) {names : List κ} (h : names.Nodup) (items : List α) :
    (names.flatMap fun name => items.filter fun a => key a = name).Perm
      (items.filter fun a => key a ∈ names) := by
  induction names with
  | nil => simp
  | cons name rest ih =>
      obtain ⟨hname, hrest⟩ := List.nodup_cons.mp h
      have hsplit := List.filter_append_perm (fun a => decide (key a = name))
        (items.filter fun a => key a ∈ name :: rest)
      have hfirst : (items.filter fun a => key a ∈ name :: rest).filter (fun a => key a = name) =
          items.filter fun a => key a = name := by
        rw [List.filter_filter]
        refine List.filter_congr fun a _ => ?_
        by_cases heq : key a = name <;> simp [heq]
      have hothers : (items.filter fun a => key a ∈ name :: rest).filter
          (fun a => !decide (key a = name)) = items.filter fun a => key a ∈ rest := by
        rw [List.filter_filter]
        refine List.filter_congr fun a _ => ?_
        by_cases heq : key a = name <;> simp [heq, hname]
      rw [hfirst, hothers] at hsplit
      rw [List.flatMap_cons]
      exact ((ih hrest).append_left _).trans hsplit

end

namespace DetailSet

variable {s : DetailSet} {d : Detail} {type : String}

theorem types_nodup (s : DetailSet) : s.types.Nodup :=
  nodup_eraseDups _

theorem flatMap_ofType_perm (s : DetailSet) :
    (s.types.flatMap fun type => (s.ofType type).toList).Perm s.toList := by
  have hperm := flatMap_filter_perm Detail.type s.types_nodup s.toList
  have hall : (s.toList.filter fun d => d.type ∈ s.types) = s.toList :=
    List.filter_eq_self.mpr fun d hd => decide_eq_true (type_mem_types hd)
  simpa only [toList_ofType, hall] using hperm

theorem sum_size_ofType (s : DetailSet) :
    (s.types.map fun type => (s.ofType type).size).sum = s.size := by
  have hlength := s.flatMap_ofType_perm.length_eq
  rwa [List.length_flatMap] at hlength

theorem ofType_ofType_self (s : DetailSet) (type : String) :
    (s.ofType type).ofType type = s.ofType type := by
  apply eq_of_toList_eq
  rw [toList_ofType, List.filter_eq_self]
  intro d hd
  exact decide_eq_true (mem_ofType.mp hd).2

theorem ofType_ofType_of_ne {other : String} (h : type ≠ other) (s : DetailSet) :
    (s.ofType type).ofType other = empty := by
  apply eq_of_toList_eq
  rw [toList_ofType]
  refine List.filter_eq_nil_iff.mpr fun d hd => ?_
  rw [(mem_ofType.mp hd).2]
  simpa using h

theorem grouped_without_loss (s : DetailSet) :
    (s.types.Nodup ∧
      s.types.Pairwise (fun t u =>
        (s.toList.map Detail.type).idxOf t < (s.toList.map Detail.type).idxOf u) ∧
      ∀ t, t ∈ s.types ↔ (s.ofType t).isEmpty = false) ∧
    (∀ d ∈ s.toList, ∀ t, t ∈ s.types ∧ d ∈ (s.ofType t).toList ↔ t = d.type) ∧
    (∀ t, (s.ofType t).toList.Sublist s.toList) ∧
    (s.types.flatMap fun t => (s.ofType t).toList).Perm s.toList ∧
    (s.types.map fun t => (s.ofType t).size).sum = s.size ∧
    ∀ t u, (s.ofType t).ofType u = if t = u then s.ofType t else empty := by
  refine ⟨⟨s.types_nodup, pairwise_idxOf_eraseDups _, ?_⟩, ?_, ?_, s.flatMap_ofType_perm,
    s.sum_size_ofType, ?_⟩
  · intro t
    rw [mem_types, isEmpty_ofType_eq_false_iff]
  · intro d hd t
    rw [mem_ofType]
    constructor
    · rintro ⟨-, -, htype⟩
      exact htype.symm
    · rintro rfl
      exact ⟨type_mem_types hd, hd, rfl⟩
  · intro t
    rw [toList_ofType]
    exact List.filter_sublist
  · intro t u
    split
    · next h => rw [← h, ofType_ofType_self]
    · next h => exact ofType_ofType_of_ne h s

end DetailSet

namespace Payments

theorem requested_grouped :
    account ∈ requested.toList ∧ requested.types = ["account", "payment", "consent"] ∧
      (∀ t, t ∈ requested.types ∧ account ∈ (requested.ofType t).toList ↔ t = account.type) ∧
      (requested.ofType "payment").toList = [detail ["cancel"], detail ["initiate", "status"]] := by
  have hmem : account ∈ requested.toList := List.mem_cons_self
  obtain ⟨-, hgroup, -⟩ := DetailSet.grouped_without_loss requested
  exact ⟨hmem, by decide +kernel, hgroup account hmem, rfl⟩

end Payments

end RichAuthorization
