import RichAuthorization.Detail
import RichAuthorization.Proofs.Named

/-!
The written form of a detail determines the detail.
-/

namespace RichAuthorization

theorem Json.Object.find?_eq_none_iff {o : Json.Object} {name : String} :
    o.find? name = none ↔ Named.find? name o.members = none := by
  simp [find?]

theorem Json.Object.erase_insert {o : Json.Object} {name : String} (v : Json)
    (h : o.find? name = none) : (o.insert name v).erase name = o := by
  obtain ⟨members, canonical⟩ := o
  have hnone : Named.find? name members = none := find?_eq_none_iff.mp h
  simp [insert, erase, Named.erase_insert v.tree hnone]

theorem Json.object_injective {a b : Json.Object} (h : Json.object a = Json.object b) : a = b := by
  have hmembers : Json.Tree.object a.members = .object b.members := congrArg Json.tree h
  cases a
  cases b
  simpa using hmembers

theorem Detail.toJson_injective {a b : Detail} (h : a.toJson = b.toJson) : a = b := by
  have hfields := Json.object_injective h
  have htype : a.type = b.type := by
    have hfind := congrArg (fun o => o.find? typeName) hfields
    simp only [Json.Object.find?_insert_self, Option.some.injEq] at hfind
    have htree := congrArg Json.tree hfind
    exact Json.Tree.string.inj htree
  have herase : a.fields = b.fields := by
    have ha := Json.Object.erase_insert (.string a.type) a.untyped
    have hb := Json.Object.erase_insert (.string b.type) b.untyped
    rw [← ha, ← hb]
    exact congrArg (fun o => o.erase typeName) hfields
  cases a
  cases b
  simp_all

end RichAuthorization
