import RichAuthorization.Json.Basic

/-!
What the views of a JSON value say: each of them gives back exactly what the value was made from.
-/

namespace RichAuthorization.Json

theorem eq_iff_tree_eq {a b : Json} : a = b ↔ a.tree = b.tree := by
  cases a
  cases b
  simp

theorem tree_ofTree {t : Tree} (h : t.Canonical) : (ofTree t).tree = t :=
  Tree.normal_of_canonical t h

theorem beq_object_iff {a b : Object} : (object a == object b) = true ↔ (a == b) = true := by
  rw [beq_iff]
  simp only [object, Tree.same]
  rfl

theorem string?_eq_some_iff {v : Json} {text : String} :
    v.string? = some text ↔ v = .string text := by
  rw [eq_iff_tree_eq, string?, string]
  cases v.tree <;> simp

theorem items?_array (items : List Json) : (array items).items? = some items := by
  have hid : ofTree ∘ tree = id := funext ofTree_tree
  simp [items?, array, hid]

theorem array_injective {items others : List Json} (h : array items = array others) :
    items = others := by
  have hitems := congrArg items? h
  rwa [items?_array, items?_array, Option.some.injEq] at hitems

theorem array_map_ofTree {items : List Tree} (h : (Tree.array items).Canonical) :
    array (items.map ofTree) = ⟨.array items, h⟩ := by
  have hnormal : ∀ t ∈ items, (ofTree t).tree = t := fun t ht =>
    tree_ofTree (Tree.itemsCanonical_iff.mp h t ht)
  have hmap : (items.map ofTree).map tree = items := by
    rw [List.map_map]
    exact (List.map_congr_left hnormal).trans (List.map_id items)
  simp [array, hmap]

theorem items?_eq_some_iff {v : Json} {items : List Json} :
    v.items? = some items ↔ v = .array items := by
  constructor
  · intro h
    obtain ⟨t, canonical⟩ := v
    cases t with
    | array trees =>
        rw [← Option.some.inj h]
        exact (array_map_ofTree canonical).symm
    | _ => cases h
  · rintro rfl
    exact items?_array items

theorem mapM_string?_eq_some_iff {items : List Json} {texts : List String} :
    items.mapM string? = some texts ↔ items = texts.map string := by
  induction items generalizing texts with
  | nil => cases texts <;> simp
  | cons v rest ih =>
      simp only [List.mapM_cons, Option.bind_eq_bind, Option.bind_eq_some_iff]
      constructor
      · rintro ⟨text, htext, later, hlater, heq⟩
        cases heq
        rw [string?_eq_some_iff.mp htext, ih.mp hlater, List.map_cons]
      · intro h
        obtain ⟨text, later, rfl, rfl, rfl⟩ := List.map_eq_cons_iff.mp h.symm
        exact ⟨text, string?_eq_some_iff.mpr rfl, later, ih.mpr rfl, rfl⟩

theorem strings?_eq_some_iff {v : Json} {texts : List String} :
    v.strings? = some texts ↔ v = .strings texts := by
  simp only [strings?, Option.bind_eq_some_iff, mapM_string?_eq_some_iff, items?_eq_some_iff]
  constructor
  · rintro ⟨items, rfl, rfl⟩
    rfl
  · rintro rfl
    exact ⟨texts.map string, rfl, rfl⟩

theorem Object.find?_foldl_insert (members : List (String × Json)) (o : Object) (name : String) :
    (members.foldl (fun o member => o.insert member.1 member.2) o).find? name =
      ((members.reverse.find? fun member => member.1 = name).map Prod.snd).or (o.find? name) := by
  induction members generalizing o with
  | nil => rfl
  | cons member rest ih =>
      rw [List.foldl_cons, ih, List.reverse_cons, List.find?_append, Option.map_or, Option.or_assoc]
      congr 1
      by_cases h : member.1 = name
      · subst h
        simp
      · simp [h, find?_insert_of_ne h]

theorem member?_record (members : List (String × Json)) (name : String) :
    (record members).member? name =
      (members.reverse.find? fun member => member.1 = name).map Prod.snd :=
  (Object.find?_foldl_insert members .empty name).trans (Option.or_none)

end RichAuthorization.Json
