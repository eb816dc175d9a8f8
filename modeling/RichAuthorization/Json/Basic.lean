import RichAuthorization.Json.Tree

/-!
JSON values, and the members of a JSON object.
-/

namespace RichAuthorization

open Json (Tree Number Double)

structure Json where
  tree : Tree
  canonical : tree.Canonical

namespace Json

def ofTree (t : Tree) : Json :=
  ⟨t.normal, t.canonical_normal⟩

@[simp]
theorem ofTree_tree (v : Json) : ofTree v.tree = v := by
  obtain ⟨t, h⟩ := v
  simp [ofTree, Tree.normal_of_canonical t h]

instance : BEq Json := ⟨fun a b => a.tree.same b.tree⟩

theorem beq_iff {a b : Json} : (a == b) = true ↔ a.tree.same b.tree = true := Iff.rfl

instance : EquivBEq Json where
  rfl := Tree.same_refl _
  symm h := (Tree.same_comm _ _).trans h
  trans hab hbc := Tree.same_trans _ hab hbc

def null : Json := ⟨.null, trivial⟩

def bool (b : Bool) : Json := ⟨.bool b, trivial⟩

def number (n : Number) : Json := ⟨.number n, trivial⟩

def int (i : Int) : Json := number (.int i)

def string (s : String) : Json := ⟨.string s, trivial⟩

def array (items : List Json) : Json :=
  ⟨.array (items.map Json.tree), Tree.itemsCanonical_iff.mpr fun t ht => by
    obtain ⟨v, _, rfl⟩ := List.mem_map.mp ht
    exact v.canonical⟩

def strings (items : List String) : Json :=
  array (items.map string)

def option {α : Type _} (f : α → Json) : Option α → Json
  | none => null
  | some a => f a

instance : Inhabited Json := ⟨null⟩

def string? (v : Json) : Option String :=
  match v.tree with
  | .string s => some s
  | _ => none

def bool? (v : Json) : Option Bool :=
  match v.tree with
  | .bool b => some b
  | _ => none

def int? (v : Json) : Option Int :=
  match v.tree with
  | .number (.int i) => some i
  | _ => none

def items? (v : Json) : Option (List Json) :=
  match v.tree with
  | .array items => some (items.map ofTree)
  | _ => none

def strings? (v : Json) : Option (List String) :=
  v.items?.bind fun items => items.mapM string?

structure Object where
  members : List (String × Tree)
  canonical : (Tree.object members).Canonical

namespace Object

def empty : Object := ⟨[], Named.sorted_nil, trivial⟩

instance : Inhabited Object := ⟨empty⟩

def find? (o : Object) (name : String) : Option Json :=
  (Named.find? name o.members).map ofTree

theorem membersCanonical_insert {members : List (String × Tree)} (name : String) (v : Json)
    (h : Tree.MembersCanonical members) :
    Tree.MembersCanonical (Named.insert name v.tree members) := by
  refine Tree.membersCanonical_iff.mpr fun member hmember => ?_
  rcases Named.mem_insert hmember with rfl | hmember
  · exact v.canonical
  · exact Tree.membersCanonical_iff.mp h member hmember

def insert (o : Object) (name : String) (v : Json) : Object :=
  ⟨Named.insert name v.tree o.members, o.canonical.1.insert name v.tree,
    membersCanonical_insert name v o.canonical.2⟩

def ofList (members : List (String × Json)) : Object :=
  members.foldl (fun o member => o.insert member.1 member.2) empty

theorem membersCanonical_erase {members : List (String × Tree)} (name : String)
    (h : Tree.MembersCanonical members) : Tree.MembersCanonical (Named.erase name members) :=
  Tree.membersCanonical_iff.mpr fun member hmember =>
    Tree.membersCanonical_iff.mp h member (List.mem_filter.mp hmember).1

def erase (o : Object) (name : String) : Object :=
  ⟨Named.erase name o.members, List.Pairwise.filter _ o.canonical.1,
    membersCanonical_erase name o.canonical.2⟩

def toList (o : Object) : List (String × Json) :=
  o.members.map fun member => (member.1, ofTree member.2)

def size (o : Object) : Nat :=
  o.members.length

instance : BEq Object := ⟨fun a b => Tree.sameMembers a.members b.members⟩

instance : EquivBEq Object where
  rfl := Tree.sameMembers_refl _
  symm h := (Tree.sameMembers_comm _ _).trans h
  trans hab hbc := Tree.sameMembers_trans _ hab hbc

@[simp]
theorem find?_empty (name : String) : empty.find? name = none := rfl

@[simp]
theorem find?_insert_self (o : Object) (name : String) (v : Json) :
    (o.insert name v).find? name = some v := by
  simp [find?, insert, Named.find?_insert_self]

theorem find?_insert_of_ne {name other : String} (h : name ≠ other) (o : Object) (v : Json) :
    (o.insert name v).find? other = o.find? other := by
  simp [find?, insert, Named.find?_insert_of_ne h]

@[simp]
theorem find?_erase_self (o : Object) (name : String) : (o.erase name).find? name = none := by
  simp [find?, erase]

theorem find?_erase_of_ne {name other : String} (h : name ≠ other) (o : Object) :
    (o.erase name).find? other = o.find? other := by
  simp [find?, erase, Named.find?_erase_of_ne h]

end Object

def object (o : Object) : Json :=
  ⟨.object o.members, o.canonical⟩

def record (members : List (String × Json)) : Json :=
  object (.ofList members)

def object? (v : Json) : Option Object :=
  match h : v.tree with
  | .object members => some ⟨members, h ▸ v.canonical⟩
  | _ => none

def member? (v : Json) (name : String) : Option Json :=
  match v.tree with
  | .object members => (Named.find? name members).map ofTree
  | _ => none

end Json

end RichAuthorization
