import RichAuthorization.Detail

/-!
Sets of details in the order of their insertion.
-/

namespace RichAuthorization

open Json (Decoder)

structure DetailSet where
  toList : List Detail
  distinct : toList.Pairwise fun a b => (a == b) = false

namespace DetailSet

def empty : DetailSet := ⟨[], .nil⟩

instance : Inhabited DetailSet := ⟨empty⟩

instance : BEq DetailSet := ⟨fun a b => a.toList == b.toList⟩

def contains (s : DetailSet) (d : Detail) : Bool :=
  s.toList.any (· == d)

theorem contains_eq_false {s : DetailSet} {d : Detail} :
    s.contains d = false ↔ ∀ e ∈ s.toList, (e == d) = false := by
  simp [contains]

def insert (s : DetailSet) (d : Detail) : DetailSet :=
  if h : s.contains d then s
  else ⟨s.toList ++ [d], List.pairwise_append.mpr ⟨s.distinct, List.pairwise_singleton _ _,
    fun e he f hf => by
      rw [List.mem_singleton.mp hf]
      exact contains_eq_false.mp (Bool.eq_false_iff.mpr h) e he⟩⟩

theorem insert_of_contains {s : DetailSet} {d : Detail} (h : s.contains d = true) :
    s.insert d = s := by
  simp [insert, h]

theorem toList_insert_of_not_contains {s : DetailSet} {d : Detail} (h : s.contains d = false) :
    (s.insert d).toList = s.toList ++ [d] := by
  simp [insert, h]

def insertNew (s : DetailSet) (d : Detail) : Bool × DetailSet :=
  if s.contains d then (false, s) else (true, s.insert d)

theorem insertNew_eq (s : DetailSet) (d : Detail) :
    s.insertNew d = (!s.contains d, s.insert d) := by
  cases h : s.contains d with
  | false => simp [insertNew, h]
  | true => simp [insertNew, h, insert_of_contains h]

def ofList (details : List Detail) : DetailSet :=
  details.foldl insert empty

theorem foldl_insert_of_distinct (details : List Detail) (s : DetailSet)
    (h : (s.toList ++ details).Pairwise fun a b => (a == b) = false) :
    (details.foldl insert s).toList = s.toList ++ details := by
  induction details generalizing s with
  | nil => simp
  | cons d rest ih =>
      have hnew : s.contains d = false := contains_eq_false.mpr fun e he =>
        (List.pairwise_append.mp h).2.2 e he d List.mem_cons_self
      have hlist := toList_insert_of_not_contains hnew
      rw [List.foldl_cons, ih (s.insert d) (by simpa [hlist] using h), hlist]
      simp

theorem toList_ofList_of_distinct {details : List Detail}
    (h : details.Pairwise fun a b => (a == b) = false) : (ofList details).toList = details := by
  exact foldl_insert_of_distinct details empty h

@[simp]
theorem ofList_toList (s : DetailSet) : ofList s.toList = s := by
  have h := toList_ofList_of_distinct s.distinct
  cases s
  cases hs : ofList _
  simp_all

theorem eq_of_toList_eq {s t : DetailSet} (h : s.toList = t.toList) : s = t := by
  rw [← ofList_toList s, h, ofList_toList]

def size (s : DetailSet) : Nat :=
  s.toList.length

def isEmpty (s : DetailSet) : Bool :=
  s.toList.isEmpty

def ofType (s : DetailSet) (type : String) : DetailSet :=
  ofList (s.toList.filter fun d => d.type = type)

@[simp]
theorem toList_ofType (s : DetailSet) (type : String) :
    (s.ofType type).toList = s.toList.filter fun d => d.type = type :=
  toList_ofList_of_distinct (s.distinct.filter _)

theorem mem_ofType {s : DetailSet} {type : String} {d : Detail} :
    d ∈ (s.ofType type).toList ↔ d ∈ s.toList ∧ d.type = type := by
  simp

def types (s : DetailSet) : List String :=
  (s.toList.map Detail.type).eraseDups

theorem mem_types {s : DetailSet} {type : String} :
    type ∈ s.types ↔ ∃ d ∈ s.toList, d.type = type := by
  simp [types]

theorem type_mem_types {s : DetailSet} {d : Detail} (h : d ∈ s.toList) : d.type ∈ s.types :=
  mem_types.mpr ⟨d, h, rfl⟩

def toJson (s : DetailSet) : Json :=
  .array (s.toList.map Detail.toJson)

def decode : Decoder DetailSet :=
  fun place d => (Decoder.list Detail.decode place d).map ofList

end DetailSet

end RichAuthorization
