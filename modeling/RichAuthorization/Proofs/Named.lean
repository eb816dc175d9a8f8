import Mathlib.Data.List.Forall2
import Mathlib.Data.List.Perm.Subperm
import RichAuthorization.Named

/-!
Sorted lists of named values: each of them is determined by what is found under the names.
-/

namespace RichAuthorization

namespace Named

variable {β : Type _} {name : String} {entries others : List (String × β)}

theorem find?_cons_eq_none_iff {n : String} {value : β} {rest : List (String × β)} :
    find? name ((n, value) :: rest) = none ↔ n ≠ name ∧ find? name rest = none := by
  by_cases h : n = name <;> simp [find?, h]

theorem erase_cons_self (value : β) (rest : List (String × β)) :
    erase name ((name, value) :: rest) = erase name rest := by
  simp [erase]

theorem erase_cons_of_ne {n : String} (h : n ≠ name) (value : β) (rest : List (String × β)) :
    erase name ((n, value) :: rest) = (n, value) :: erase name rest := by
  simp [erase, h]

theorem erase_of_find?_eq_none (h : find? name entries = none) : erase name entries = entries := by
  induction entries with
  | nil => rfl
  | cons head rest ih =>
      obtain ⟨n, v⟩ := head
      obtain ⟨hne, hrest⟩ := find?_cons_eq_none_iff.mp h
      rw [erase_cons_of_ne hne, ih hrest]

theorem erase_insert (value : β) (h : find? name entries = none) :
    erase name (insert name value entries) = entries := by
  induction entries with
  | nil => exact erase_cons_self value []
  | cons head rest ih =>
      obtain ⟨n, v⟩ := head
      obtain ⟨hne, hrest⟩ := find?_cons_eq_none_iff.mp h
      simp only [insert, Ne.symm hne, if_false]
      split
      · rw [erase_cons_self, erase_of_find?_eq_none h]
      · rw [erase_cons_of_ne hne, ih hrest]

-- Whichever entries stand before the new one, they are the same on both sides or differ in a name.
theorem forall₂_insert {γ : Type _} (R : β → γ → Prop) {as : List (String × β)}
    {bs : List (String × γ)} (ha : find? name as = none) (hb : find? name bs = none) (u : β)
    (v : γ) :
    List.Forall₂ (fun a b => a.1 = b.1 ∧ R a.2 b.2) (insert name u as) (insert name v bs) ↔
      R u v ∧ List.Forall₂ (fun a b => a.1 = b.1 ∧ R a.2 b.2) as bs := by
  induction as generalizing bs with
  | nil =>
      cases bs with
      | nil => simp [insert]
      | cons b bs =>
          obtain ⟨n, t⟩ := b
          obtain ⟨hn, -⟩ := find?_cons_eq_none_iff.mp hb
          simp only [insert, Ne.symm hn, if_false]
          split <;> simp [Ne.symm hn]
  | cons a as ih =>
      obtain ⟨m, s⟩ := a
      obtain ⟨hm, has⟩ := find?_cons_eq_none_iff.mp ha
      cases bs with
      | nil =>
          simp only [insert, Ne.symm hm, if_false]
          split <;> simp [hm]
      | cons b bs =>
          obtain ⟨n, t⟩ := b
          obtain ⟨hn, hbs⟩ := find?_cons_eq_none_iff.mp hb
          simp only [insert, Ne.symm hm, Ne.symm hn, if_false]
          by_cases heq : m = n
          · subst heq
            split
            · simp
            · simp [ih has hbs, and_left_comm]
          · -- The names go different ways wherever the new one is put.
            split <;> split <;> simp [heq, hm, Ne.symm hn]

theorem insert_of_gt (value : β) (h : ∀ entry ∈ entries, entry.1 < name) :
    insert name value entries = entries ++ [(name, value)] := by
  induction entries with
  | nil => rfl
  | cons head rest ih =>
      obtain ⟨n, v⟩ := head
      obtain ⟨hn, hrest⟩ := List.forall_mem_cons.mp h
      have hne : name ≠ n := fun heq => String.lt_irrefl n (heq ▸ hn)
      simp only [insert, String.lt_asymm hn, if_false, hne, ih hrest, List.cons_append]

theorem isSome_find?_iff : (find? name entries).isSome = true ↔ name ∈ entries.map Prod.fst := by
  induction entries with
  | nil => simp [find?]
  | cons head rest ih =>
      obtain ⟨n, v⟩ := head
      simp only [find?, List.map_cons, List.mem_cons]
      split
      · next heq => simp [heq]
      · next hne => simp [ih, Ne.symm hne]

theorem find?_filter (names : List String) (entries : List (String × β)) :
    find? name (entries.filter fun entry => entry.1 ∈ names) =
      if name ∈ names then find? name entries else none := by
  induction entries with
  | nil => simp [find?]
  | cons head rest ih =>
      obtain ⟨n, v⟩ := head
      by_cases hn : n ∈ names
      · simp only [List.filter_cons, hn, decide_true, if_true, find?, ih]
        by_cases heq : n = name
        · simp [heq, heq ▸ hn]
        · simp [heq]
      · have hne : name ∈ names → n ≠ name := fun hname heq => hn (heq ▸ hname)
        simp only [List.filter_cons, hn, decide_false, Bool.false_eq_true, if_false, ih]
        by_cases hname : name ∈ names
        · simp [hname, find?, hne hname]
        · simp [hname]

theorem Sorted.names (h : Sorted entries) : (entries.map Prod.fst).Pairwise (· < ·) :=
  List.pairwise_map.mpr h

theorem Sorted.of_names_eq (h : Sorted entries)
    (hnames : others.map Prod.fst = entries.map Prod.fst) : Sorted others :=
  List.pairwise_map.mp (hnames ▸ h.names)

theorem Sorted.nodup_names (h : Sorted entries) : (entries.map Prod.fst).Nodup := by
  refine h.names.imp ?_
  rintro a b hlt rfl
  exact String.lt_irrefl a hlt

theorem Sorted.nodup (h : Sorted entries) : entries.Nodup := by
  refine h.imp ?_
  rintro a b hlt rfl
  exact String.lt_irrefl a.1 hlt

theorem Sorted.find?_of_mem (h : Sorted entries) {value : β} (hmem : (name, value) ∈ entries) :
    find? name entries = some value := by
  induction entries with
  | nil => cases hmem
  | cons head rest ih =>
      obtain ⟨n, v⟩ := head
      obtain ⟨hlt, hrest⟩ := List.pairwise_cons.mp h
      rcases List.mem_cons.mp hmem with heq | hmem
      · cases heq
        simp [find?]
      · have hne : n ≠ name := fun heq => String.lt_irrefl name (heq ▸ hlt _ hmem)
        simp only [find?, if_neg hne]
        exact ih hrest hmem

-- As many names, each of them among the others: no name of the second list is left over.
theorem Sorted.names_eq (h : Sorted entries) (hothers : Sorted others)
    (hlen : entries.length = others.length)
    (hfound : ∀ entry ∈ entries, ∃ value, find? entry.1 others = some value) :
    entries.map Prod.fst = others.map Prod.fst := by
  have hsubset : entries.map Prod.fst ⊆ others.map Prod.fst := by
    intro name hname
    obtain ⟨entry, hentry, rfl⟩ := List.mem_map.mp hname
    obtain ⟨value, hvalue⟩ := hfound entry hentry
    exact List.mem_map.mpr ⟨(entry.1, value), mem_of_find? hvalue, rfl⟩
  have hperm :=
    (List.subperm_of_subset h.nodup_names hsubset).perm_of_length_le (by simp [hlen])
  refine hperm.eq_of_pairwise ?_ h.names hothers.names
  intro a b _ _ hab hba
  exact absurd (String.lt_trans hab hba) (String.lt_irrefl a)

theorem Sorted.ext (h : Sorted entries) (hothers : Sorted others)
    (hfind : ∀ name, find? name entries = find? name others) : entries = others := by
  have hmem : ∀ entry, entry ∈ entries ↔ entry ∈ others := by
    rintro ⟨name, value⟩
    constructor
    · intro hentry
      exact mem_of_find? ((hfind name).symm.trans (h.find?_of_mem hentry))
    · intro hentry
      exact mem_of_find? ((hfind name).trans (hothers.find?_of_mem hentry))
  have hperm : entries.Perm others :=
    (List.perm_ext_iff_of_nodup h.nodup hothers.nodup).mpr hmem
  refine hperm.eq_of_pairwise ?_ h hothers
  intro a b _ _ hab hba
  exact absurd (String.lt_trans hab hba) (String.lt_irrefl a.1)

theorem Sorted.erase (h : Sorted entries) (name : String) : Sorted (Named.erase name entries) :=
  List.Pairwise.filter _ h

theorem Sorted.insert_erase (h : Sorted entries) {value : β}
    (hfind : find? name entries = some value) :
    Named.insert name value (Named.erase name entries) = entries := by
  refine ((h.erase name).insert name value).ext h ?_
  intro other
  by_cases heq : name = other
  · subst heq
    rw [find?_insert_self, hfind]
  · rw [find?_insert_of_ne heq, find?_erase_of_ne heq]

end Named

theorem NameMap.ext_find? {β : Type _} {map other : NameMap β}
    (h : ∀ name, map.find? name = other.find? name) : map = other := by
  obtain ⟨entries, sorted⟩ := map
  obtain ⟨entries', sorted'⟩ := other
  obtain rfl : entries = entries' := sorted.ext sorted' h
  rfl

end RichAuthorization
