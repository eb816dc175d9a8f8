import RichAuthorization.DetailSet

/-!
What a granted value covers.

A requested value is covered when it is equal to the granted one or narrower. Only arrays can be
narrowed: each requested item must be covered by some granted item. Objects keep their members, for
a member restricts what an object grants, and all other values must be equal.
-/

namespace RichAuthorization

namespace Json

mutual

def Tree.covers : Tree → Tree → Bool
  | .array granted, .array requested => requested.all fun r => Tree.someCovers granted r
  | .object granted, .object requested =>
    granted.length == requested.length && Tree.membersCover granted requested
  | granted, requested => granted.same requested

def Tree.someCovers : List Tree → Tree → Bool
  | [], _ => false
  | g :: rest, r => g.covers r || Tree.someCovers rest r

def Tree.membersCover : List (String × Tree) → List (String × Tree) → Bool
  | [], _ => true
  | (name, g) :: rest, requested =>
    (match Named.find? name requested with
      | some r => g.covers r
      | none => false)
      && Tree.membersCover rest requested

end

theorem Tree.someCovers_iff {granted : List Tree} {r : Tree} :
    Tree.someCovers granted r = true ↔ ∃ g ∈ granted, g.covers r = true := by
  induction granted with
  | nil => simp [someCovers]
  | cons g rest ih => simp [someCovers, ih]

theorem Tree.membersCover_iff {granted requested : List (String × Tree)} :
    Tree.membersCover granted requested = true ↔
      ∀ member ∈ granted, ∃ r, Named.find? member.1 requested = some r ∧
        member.2.covers r = true := by
  induction granted with
  | nil => simp [membersCover]
  | cons member rest ih =>
      obtain ⟨name, g⟩ := member
      simp only [membersCover, Bool.and_eq_true, ih, List.forall_mem_cons]
      cases Named.find? name requested <;> simp

def covers (granted requested : Json) : Bool :=
  granted.tree.covers requested.tree

def Object.covers (granted requested : Object) : Bool :=
  (Tree.object granted.members).covers (.object requested.members)

end Json

namespace Detail

def covers (granted requested : Detail) : Bool :=
  granted.fields.covers requested.fields

def misfit? (d : Detail) : Option String :=
  stringArrayNames.find? fun name => (d.field? name).isSome && (d.strings? name).isNone

theorem misfit?_eq_none {d : Detail} :
    d.misfit? = none ↔
      ∀ name ∈ stringArrayNames, (d.field? name).isSome → (d.strings? name).isSome := by
  simp [misfit?, List.find?_eq_none, Option.isSome_iff_ne_none]

end Detail

end RichAuthorization
