import RichAuthorization.Named
import RichAuthorization.Json.Double

/-!
JSON values as trees.

An object lists its members, and in a canonical tree every object lists them in increasing order of
the name, so that no name occurs twice. `normal` gives the canonical form: the last of the members
with one name stays. Equality compares doubles as numbers and tells them from integers.
-/

namespace RichAuthorization.Json

inductive Number where
  | int (value : Int)
  | double (value : Double)
deriving DecidableEq

namespace Number

def same : Number → Number → Bool
  | .int a, .int b => a == b
  | .double a, .double b => a.same b
  | _, _ => false

theorem same_refl (n : Number) : n.same n = true := by
  cases n <;> simp [same, Double.same_refl]

theorem same_comm (a b : Number) : a.same b = b.same a := by
  cases a <;> cases b <;> simp [same, Double.same_comm, Bool.beq_comm]

theorem same_trans {a b c : Number} (hab : a.same b = true) (hbc : b.same c = true) :
    a.same c = true := by
  cases a <;> cases b <;> cases c <;> simp_all [same]
  exact Double.same_trans hab hbc

end Number

inductive Tree where
  | null
  | bool (value : Bool)
  | number (value : Number)
  | string (value : String)
  | array (items : List Tree)
  | object (members : List (String × Tree))

namespace Tree

instance : Inhabited Tree := ⟨.null⟩

mutual

def same : Tree → Tree → Bool
  | .null, .null => true
  | .bool a, .bool b => a == b
  | .number a, .number b => a.same b
  | .string a, .string b => a == b
  | .array as, .array bs => sameItems as bs
  | .object as, .object bs => sameMembers as bs
  | _, _ => false

def sameItems : List Tree → List Tree → Bool
  | [], [] => true
  | a :: as, b :: bs => a.same b && sameItems as bs
  | _, _ => false

def sameMembers : List (String × Tree) → List (String × Tree) → Bool
  | [], [] => true
  | (m, a) :: as, (n, b) :: bs => m == n && a.same b && sameMembers as bs
  | _, _ => false

end

mutual

theorem same_refl : (t : Tree) → t.same t = true
  | .null => rfl
  | .bool _ => by simp [same]
  | .number n => by simp [same, n.same_refl]
  | .string _ => by simp [same]
  | .array items => by simp [same, sameItems_refl items]
  | .object members => by simp [same, sameMembers_refl members]

theorem sameItems_refl : (items : List Tree) → sameItems items items = true
  | [] => rfl
  | t :: rest => by simp [sameItems, same_refl t, sameItems_refl rest]

theorem sameMembers_refl : (members : List (String × Tree)) → sameMembers members members = true
  | [] => rfl
  | (_, t) :: rest => by simp [sameMembers, same_refl t, sameMembers_refl rest]

end

mutual

theorem same_comm : (a b : Tree) → a.same b = b.same a
  | .null, b => by cases b <;> simp [same]
  | .bool _, b => by cases b <;> simp [same, Bool.beq_comm]
  | .number m, b => by cases b <;> simp [same, m.same_comm]
  | .string _, b => by cases b <;> simp [same, Bool.beq_comm]
  | .array items, b => by cases b <;> simp [same, sameItems_comm items]
  | .object members, b => by cases b <;> simp [same, sameMembers_comm members]

theorem sameItems_comm : (as bs : List Tree) → sameItems as bs = sameItems bs as
  | [], bs => by cases bs <;> simp [sameItems]
  | a :: as, bs => by cases bs <;> simp [sameItems, same_comm a, sameItems_comm as]

theorem sameMembers_comm : (as bs : List (String × Tree)) → sameMembers as bs = sameMembers bs as
  | [], bs => by cases bs <;> simp [sameMembers]
  | (m, a) :: as, bs => by
      cases bs with
      | nil => simp [sameMembers]
      | cons b bs => simp [sameMembers, same_comm a, sameMembers_comm as, Bool.beq_comm (a := m)]

end

mutual

theorem same_trans : (a : Tree) → {b c : Tree} → a.same b = true → b.same c = true →
    a.same c = true
  | .null, b, c, hab, hbc => by cases b <;> cases c <;> simp_all [same]
  | .bool _, b, c, hab, hbc => by cases b <;> cases c <;> simp_all [same]
  | .number _, b, c, hab, hbc => by
      cases b <;> cases c <;> simp_all [same]
      exact Number.same_trans hab hbc
  | .string _, b, c, hab, hbc => by cases b <;> cases c <;> simp_all [same]
  | .array items, b, c, hab, hbc => by
      cases b <;> cases c <;> simp_all [same]
      exact sameItems_trans items hab hbc
  | .object members, b, c, hab, hbc => by
      cases b <;> cases c <;> simp_all [same]
      exact sameMembers_trans members hab hbc

theorem sameItems_trans : (as : List Tree) → {bs cs : List Tree} → sameItems as bs = true →
    sameItems bs cs = true → sameItems as cs = true
  | [], bs, cs, hab, hbc => by cases bs <;> cases cs <;> simp_all [sameItems]
  | a :: as, bs, cs, hab, hbc => by
      cases bs <;> cases cs <;> simp_all [sameItems]
      exact ⟨same_trans a hab.1 hbc.1, sameItems_trans as hab.2 hbc.2⟩

theorem sameMembers_trans : (as : List (String × Tree)) → {bs cs : List (String × Tree)} →
    sameMembers as bs = true → sameMembers bs cs = true → sameMembers as cs = true
  | [], bs, cs, hab, hbc => by cases bs <;> cases cs <;> simp_all [sameMembers]
  | (m, a) :: as, bs, cs, hab, hbc => by
      cases bs with
      | nil => simp [sameMembers] at hab
      | cons b bs =>
          cases cs with
          | nil => simp [sameMembers] at hbc
          | cons c cs =>
              simp only [sameMembers, Bool.and_eq_true, beq_iff_eq] at hab hbc ⊢
              exact ⟨⟨hab.1.1.trans hbc.1.1, same_trans a hab.1.2 hbc.1.2⟩,
                sameMembers_trans as hab.2 hbc.2⟩

end

mutual

def Canonical : Tree → Prop
  | .array items => ItemsCanonical items
  | .object members => Named.Sorted members ∧ MembersCanonical members
  | _ => True

def ItemsCanonical : List Tree → Prop
  | [] => True
  | t :: rest => t.Canonical ∧ ItemsCanonical rest

def MembersCanonical : List (String × Tree) → Prop
  | [] => True
  | (_, t) :: rest => t.Canonical ∧ MembersCanonical rest

end

theorem itemsCanonical_iff {items : List Tree} :
    ItemsCanonical items ↔ ∀ t ∈ items, t.Canonical := by
  induction items with
  | nil => simp [ItemsCanonical]
  | cons t rest ih => simp [ItemsCanonical, ih]

theorem membersCanonical_iff {members : List (String × Tree)} :
    MembersCanonical members ↔ ∀ member ∈ members, member.2.Canonical := by
  induction members with
  | nil => simp [MembersCanonical]
  | cons member rest ih => simp [MembersCanonical, ih]

mutual

def normal : Tree → Tree
  | .array items => .array (normalItems items)
  | .object members => .object (normalMembers members)
  | t => t

def normalItems : List Tree → List Tree
  | [] => []
  | t :: rest => t.normal :: normalItems rest

def normalMembers : List (String × Tree) → List (String × Tree)
  | [] => []
  | (name, t) :: rest => Named.insertIfNew name t.normal (normalMembers rest)

end

theorem sorted_normalMembers (members : List (String × Tree)) :
    Named.Sorted (normalMembers members) := by
  induction members with
  | nil => exact Named.sorted_nil
  | cons member rest ih => exact ih.insertIfNew member.1 member.2.normal

mutual

theorem canonical_normal : (t : Tree) → t.normal.Canonical
  | .null => trivial
  | .bool _ => trivial
  | .number _ => trivial
  | .string _ => trivial
  | .array items => itemsCanonical_normalItems items
  | .object members => ⟨sorted_normalMembers members, membersCanonical_normalMembers members⟩

theorem itemsCanonical_normalItems : (items : List Tree) → ItemsCanonical (normalItems items)
  | [] => trivial
  | t :: rest => ⟨canonical_normal t, itemsCanonical_normalItems rest⟩

theorem membersCanonical_normalMembers : (members : List (String × Tree)) →
    MembersCanonical (normalMembers members)
  | [] => trivial
  | (name, t) :: rest => by
      refine membersCanonical_iff.mpr fun member hmember => ?_
      rcases Named.mem_insertIfNew hmember with rfl | hmember
      · exact canonical_normal t
      · exact membersCanonical_iff.mp (membersCanonical_normalMembers rest) member hmember

end

mutual

theorem normal_of_canonical : (t : Tree) → t.Canonical → t.normal = t
  | .null, _ => rfl
  | .bool _, _ => rfl
  | .number _, _ => rfl
  | .string _, _ => rfl
  | .array items, h => congrArg Tree.array (normalItems_of_canonical items h)
  | .object members, h => congrArg Tree.object (normalMembers_of_canonical members h.1 h.2)

theorem normalItems_of_canonical : (items : List Tree) → ItemsCanonical items →
    normalItems items = items
  | [], _ => rfl
  | t :: rest, h => by
      rw [normalItems, normal_of_canonical t h.1, normalItems_of_canonical rest h.2]

theorem normalMembers_of_canonical : (members : List (String × Tree)) → Named.Sorted members →
    MembersCanonical members → normalMembers members = members
  | [], _, _ => rfl
  | (name, t) :: rest, hsorted, h => by
      obtain ⟨hhead, hrest⟩ := List.pairwise_cons.mp hsorted
      rw [normalMembers, normal_of_canonical t h.1, normalMembers_of_canonical rest hrest h.2]
      exact Named.insertIfNew_of_lt t hhead

end

end Tree

end RichAuthorization.Json
