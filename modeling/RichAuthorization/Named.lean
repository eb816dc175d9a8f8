/-!
Finite maps from names, kept as lists in increasing order of the name.

The order of names is the order of their code points, which is also the order of their UTF-8
bytes. `insert` is stated by what `find?` sees afterwards: the new value under its own name, and
what was there before under every other.
-/

namespace RichAuthorization

namespace Named

variable {β : Type _}

def Sorted (entries : List (String × β)) : Prop :=
  entries.Pairwise fun a b => a.1 < b.1

def find? (name : String) : List (String × β) → Option β
  | [] => none
  | (n, v) :: rest => if n = name then some v else find? name rest

def insert (name : String) (value : β) : List (String × β) → List (String × β)
  | [] => [(name, value)]
  | (n, v) :: rest =>
    if name < n then (name, value) :: (n, v) :: rest
    else if name = n then (name, value) :: rest
    else (n, v) :: insert name value rest

def insertIfNew (name : String) (value : β) (entries : List (String × β)) : List (String × β) :=
  if (find? name entries).isSome then entries else insert name value entries

def erase (name : String) (entries : List (String × β)) : List (String × β) :=
  entries.filter fun entry => entry.1 ≠ name

theorem lt_of_not_lt_of_ne {a b : String} (h : ¬ a < b) (hne : ¬ a = b) : b < a :=
  String.not_le.mp fun hle => hne (String.le_antisymm hle (String.not_lt.mp h))

theorem sorted_nil : Sorted ([] : List (String × β)) := List.Pairwise.nil

theorem find?_insert_self (name : String) (value : β) (entries : List (String × β)) :
    find? name (insert name value entries) = some value := by
  induction entries with
  | nil => simp [insert, find?]
  | cons entry rest ih =>
      obtain ⟨n, v⟩ := entry
      simp only [insert]
      split
      · simp [find?]
      · split
        · simp [find?]
        · next hne => simp [find?, Ne.symm hne, ih]

theorem find?_insert_of_ne {name other : String} (h : name ≠ other) (value : β)
    (entries : List (String × β)) :
    find? other (insert name value entries) = find? other entries := by
  induction entries with
  | nil => simp [insert, find?, h]
  | cons entry rest ih =>
      obtain ⟨n, v⟩ := entry
      simp only [insert]
      split
      · simp [find?, h]
      · split
        · next heq => subst heq; simp [find?, h]
        · simp only [find?, ih]

theorem mem_insert {name : String} {value : β} {entries : List (String × β)} {entry : String × β}
    (h : entry ∈ insert name value entries) : entry = (name, value) ∨ entry ∈ entries := by
  induction entries with
  | nil => exact .inl (by simpa [insert] using h)
  | cons head rest ih =>
      obtain ⟨n, v⟩ := head
      simp only [insert] at h
      split at h
      · simpa using h
      · split at h
        · rcases List.mem_cons.mp h with h | h
          · exact .inl h
          · exact .inr (List.mem_cons_of_mem _ h)
        · rcases List.mem_cons.mp h with h | h
          · exact .inr (h ▸ List.mem_cons_self)
          · exact (ih h).imp_right (List.mem_cons_of_mem _)

theorem Sorted.insert {entries : List (String × β)} (h : Sorted entries) (name : String)
    (value : β) : Sorted (Named.insert name value entries) := by
  induction entries with
  | nil => exact List.pairwise_singleton _ _
  | cons head rest ih =>
      obtain ⟨n, v⟩ := head
      obtain ⟨hhead, hrest⟩ := List.pairwise_cons.mp h
      simp only [Named.insert]
      split
      · next hlt =>
        refine List.pairwise_cons.mpr ⟨fun entry hentry => ?_, h⟩
        rcases List.mem_cons.mp hentry with rfl | hentry
        · exact hlt
        · exact String.lt_trans hlt (hhead entry hentry)
      · next hnlt =>
        split
        · next heq => subst heq; exact List.pairwise_cons.mpr ⟨hhead, hrest⟩
        · next hne =>
          refine List.pairwise_cons.mpr ⟨fun entry hentry => ?_, ih hrest⟩
          rcases mem_insert hentry with rfl | hentry
          · exact lt_of_not_lt_of_ne hnlt hne
          · exact hhead entry hentry

theorem Sorted.insertIfNew {entries : List (String × β)} (h : Sorted entries) (name : String)
    (value : β) : Sorted (Named.insertIfNew name value entries) := by
  simp only [Named.insertIfNew]
  split
  · exact h
  · exact h.insert name value

theorem mem_insertIfNew {name : String} {value : β} {entries : List (String × β)}
    {entry : String × β} (h : entry ∈ insertIfNew name value entries) :
    entry = (name, value) ∨ entry ∈ entries := by
  simp only [insertIfNew] at h
  split at h
  · exact .inr h
  · exact mem_insert h

theorem find?_eq_none_of_lt {name : String} {entries : List (String × β)}
    (h : ∀ entry ∈ entries, name < entry.1) : find? name entries = none := by
  induction entries with
  | nil => rfl
  | cons head rest ih =>
      obtain ⟨n, v⟩ := head
      have hne : n ≠ name := fun heq =>
        String.lt_irrefl name (heq ▸ h (n, v) List.mem_cons_self)
      simp only [find?, if_neg hne]
      exact ih fun entry hentry => h entry (List.mem_cons_of_mem _ hentry)

@[simp]
theorem find?_erase_self (name : String) (entries : List (String × β)) :
    find? name (erase name entries) = none := by
  induction entries with
  | nil => rfl
  | cons head rest ih =>
      obtain ⟨n, v⟩ := head
      simp only [erase, List.filter_cons] at ih ⊢
      split
      · next h => simpa [find?, show n ≠ name by simpa using h] using ih
      · exact ih

theorem find?_erase_of_ne {name other : String} (h : name ≠ other) (entries : List (String × β)) :
    find? other (erase name entries) = find? other entries := by
  induction entries with
  | nil => rfl
  | cons head rest ih =>
      obtain ⟨n, v⟩ := head
      simp only [erase, List.filter_cons] at ih ⊢
      split
      · simp only [find?, ih]
      · next hn =>
        have hn : n = name := by simpa using hn
        rw [find?, if_neg (hn ▸ h)]
        exact ih

theorem insertIfNew_of_lt {name : String} {entries : List (String × β)} (value : β)
    (h : ∀ entry ∈ entries, name < entry.1) :
    insertIfNew name value entries = (name, value) :: entries := by
  rw [insertIfNew, find?_eq_none_of_lt h]
  cases entries with
  | nil => rfl
  | cons head rest => simp [insert, h head List.mem_cons_self]

theorem mem_of_find? {name : String} {entries : List (String × β)} {value : β}
    (h : find? name entries = some value) : (name, value) ∈ entries := by
  induction entries with
  | nil => cases h
  | cons head rest ih =>
      obtain ⟨n, v⟩ := head
      simp only [find?] at h
      split at h
      · next heq =>
        cases h; subst heq; exact List.mem_cons_self
      · exact List.mem_cons_of_mem _ (ih h)

theorem mem_names_insert {name other : String} {value : β} {entries : List (String × β)} :
    other ∈ (insert name value entries).map Prod.fst ↔
      other = name ∨ other ∈ entries.map Prod.fst := by
  induction entries with
  | nil => simp [insert]
  | cons head rest ih =>
      obtain ⟨n, v⟩ := head
      simp only [insert]
      split
      · simp
      · split
        · next heq => subst heq; simp
        · rw [List.map_cons, List.mem_cons, ih, List.map_cons, List.mem_cons]
          exact or_left_comm

def sortedNames (names : List String) : List String :=
  (names.foldr (fun name entries => insert name () entries) []).map Prod.fst

theorem mem_sortedNames {name : String} {names : List String} :
    name ∈ sortedNames names ↔ name ∈ names := by
  induction names with
  | nil => simp [sortedNames]
  | cons n rest ih =>
      rw [sortedNames, List.foldr_cons, mem_names_insert, List.mem_cons]
      exact or_congr Iff.rfl ih

end Named

structure NameMap (β : Type _) where
  entries : List (String × β)
  sorted : Named.Sorted entries

namespace NameMap

variable {β : Type _}

def empty : NameMap β := ⟨[], Named.sorted_nil⟩

instance : Inhabited (NameMap β) := ⟨empty⟩

def find? (map : NameMap β) (name : String) : Option β :=
  Named.find? name map.entries

def insert (map : NameMap β) (name : String) (value : β) : NameMap β :=
  ⟨Named.insert name value map.entries, map.sorted.insert name value⟩

def ofList (entries : List (String × β)) : NameMap β :=
  entries.foldl (fun map entry => map.insert entry.1 entry.2) empty

def names (map : NameMap β) : List String :=
  map.entries.map Prod.fst

def size (map : NameMap β) : Nat :=
  map.entries.length

theorem find?_empty (name : String) : (empty : NameMap β).find? name = none := rfl

theorem find?_insert_self (map : NameMap β) (name : String) (value : β) :
    (map.insert name value).find? name = some value :=
  Named.find?_insert_self name value map.entries

theorem find?_insert_of_ne {name other : String} (h : name ≠ other) (map : NameMap β)
    (value : β) : (map.insert name value).find? other = map.find? other :=
  Named.find?_insert_of_ne h value map.entries

end NameMap

end RichAuthorization
