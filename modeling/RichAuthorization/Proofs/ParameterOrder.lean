import Mathlib.Data.List.Induction
import RichAuthorization.Proofs.Organization

/-!
The order of unrelated parameters does not matter.
-/

namespace RichAuthorization

namespace Client

namespace Request

namespace Addition

def bodyValue? (name : String) : Addition → Option String
  | body n value => if n = name then some value else none
  | query _ _ => none

def queryValue? (name : String) : Addition → Option String
  | body _ _ => none
  | query n value => if n = name then some value else none

end Addition

def bodyAdded (name : String) (additions : List Addition) : List String :=
  additions.filterMap (Addition.bodyValue? name)

def lastQuery? (name : String) (additions : List Addition) : Option String :=
  (additions.filterMap (Addition.queryValue? name)).getLast?

theorem ofAdditions_concat (additions : List Addition) (addition : Addition) :
    ofAdditions (additions ++ [addition]) = (ofAdditions additions).add addition :=
  List.foldl_append

theorem bodyValues_add (r : Request) (addition : Addition) (name : String) :
    (r.add addition).bodyValues name =
      r.bodyValues name ++ (addition.bodyValue? name).toList := by
  cases addition with
  | body n value =>
      by_cases h : n = name <;> simp [add, withBody, bodyValues, valuesOf, Addition.bodyValue?, h]
  | query n value => simp [add, withQuery, bodyValues, Addition.bodyValue?]

theorem queryValue?_add (r : Request) (addition : Addition) (name : String) :
    (r.add addition).queryValue? name =
      (addition.queryValue? name).or (r.queryValue? name) := by
  cases addition with
  | body n value => simp [add, withBody, queryValue?, Addition.queryValue?]
  | query n value =>
      by_cases h : n = name <;>
        simp [add, withQuery, queryValue?, valuesOf, Addition.queryValue?, h]

theorem bodyValues_ofAdditions (additions : List Addition) (name : String) :
    (ofAdditions additions).bodyValues name = bodyAdded name additions := by
  induction additions using List.reverseRecOn with
  | nil => rfl
  | append_singleton before addition ih =>
      rw [ofAdditions_concat, bodyValues_add, ih, bodyAdded, bodyAdded, List.filterMap_append]
      cases h : addition.bodyValue? name <;> simp [h]

theorem queryValue?_ofAdditions (additions : List Addition) (name : String) :
    (ofAdditions additions).queryValue? name = lastQuery? name additions := by
  induction additions using List.reverseRecOn with
  | nil => rfl
  | append_singleton before addition ih =>
      rw [ofAdditions_concat, queryValue?_add, ih, lastQuery?, lastQuery?, List.filterMap_append]
      cases h : addition.queryValue? name <;> simp [h]

structure Alike (r r' : Request) : Prop where
  bodyValues_eq : ∀ name, r.bodyValues name = r'.bodyValues name
  queryValue?_eq : ∀ name, r.queryValue? name = r'.queryValue? name

namespace Alike

variable {r r' : Request}

theorem bodyValue?_eq (h : Alike r r') (name : String) : r.bodyValue? name = r'.bodyValue? name := by
  rw [bodyValue?, bodyValue?, h.bodyValues_eq]

theorem parameter?_eq (h : Alike r r') (name : String) : r.parameter? name = r'.parameter? name := by
  rw [parameter?, parameter?, h.queryValue?_eq, h.bodyValue?_eq]

theorem isApiBased_eq (h : Alike r r') : r.isApiBased = r'.isApiBased := by
  rw [isApiBased, isApiBased, h.parameter?_eq]

theorem clientId?_eq (h : Alike r r') : r.clientId? = r'.clientId? := by
  simp only [clientId?, h.bodyValue?_eq, h.queryValue?_eq, h.isApiBased_eq]

end Alike

end Request

namespace Gate

variable {g : Gate} {r r' : Request} {a : Authentication} {ctx : RequestContext} {id : String}

theorem clientId_congr (h : r.Alike r') : clientId r a = clientId r' a := by
  simp only [clientId, Authentication.resolve, h.clientId?_eq]

theorem allowsGrantTypes_congr (h : r.Alike r') : g.allowsGrantTypes r = g.allowsGrantTypes r' := by
  rw [allowsGrantTypes, allowsGrantTypes, h.bodyValues_eq]

theorem judgeClient_congr (h : r.Alike r') : g.judgeClient id r ctx = g.judgeClient id r' ctx := by
  simp only [judgeClient, bypass, h.isApiBased_eq]

theorem admits_congr (h : r.Alike r') : g.admits r a ctx = g.admits r' a ctx := by
  simp only [admits, clientId_congr h, allowsGrantTypes_congr h, judgeClient_congr h, h.clientId?_eq]

end Gate

namespace Request

structure AddAlike (first second : List Addition) : Prop where
  body : ∀ name, bodyAdded name first = bodyAdded name second
  query : ∀ name, lastQuery? name first = lastQuery? name second

theorem AddAlike.alike {first second : List Addition} (h : AddAlike first second) :
    (ofAdditions first).Alike (ofAdditions second) := by
  refine ⟨fun name => ?_, fun name => ?_⟩
  · rw [bodyValues_ofAdditions, bodyValues_ofAdditions, h.body name]
  · rw [queryValue?_ofAdditions, queryValue?_ofAdditions, h.query name]

theorem order_of_unrelated_parameters_is_irrelevant {first second : List Addition}
    (h : AddAlike first second) :
    (∀ name, (ofAdditions first).bodyValues name = (ofAdditions second).bodyValues name ∧
      (ofAdditions first).queryValue? name = (ofAdditions second).queryValue? name ∧
      (ofAdditions first).parameter? name = (ofAdditions second).parameter? name) ∧
    (ofAdditions first).isApiBased = (ofAdditions second).isApiBased ∧
    (ofAdditions first).clientId? = (ofAdditions second).clientId? ∧
    ∀ (g : Gate) (a : Authentication) (ctx : RequestContext),
      g.admits (ofAdditions first) a ctx = g.admits (ofAdditions second) a ctx := by
  have halike := h.alike
  refine ⟨fun name => ?_, halike.isApiBased_eq, halike.clientId?_eq, ?_⟩
  · exact ⟨halike.bodyValues_eq name, halike.queryValue?_eq name, halike.parameter?_eq name⟩
  · intro g a ctx
    exact Gate.admits_congr halike

end Request

end Client

namespace Payments

open Client (Request Gate)

def orderly : List Request.Addition :=
  [.query "client_id" "other", .query "response_mode" "form_post", .body "grant_type" "password",
    .body "grant_type" "client_credentials", .query "response_mode" "direct",
    .query "client_id" "portal"]

def mixed : List Request.Addition :=
  [.body "grant_type" "password", .query "client_id" "portal", .query "response_mode" "direct",
    .body "grant_type" "client_credentials"]

theorem orderly_addAlike_mixed : Request.AddAlike orderly mixed := by
  constructor
  · intro name
    rfl
  · intro name
    by_cases hid : "client_id" = name
    · subst hid
      rfl
    · by_cases hmode : "response_mode" = name
      · subst hmode
        rfl
      · simp [Request.lastQuery?, orderly, mixed, Request.Addition.queryValue?, List.findSome?, hid,
          hmode]

def sharedPortal : Gate :=
  { portal with
    settings := ⟨["client_credentials", "password"]⟩
    management := { portal.management with
      application := fun name _ => .ok (some ⟨name, "main", true⟩) } }

theorem shared_portal_admits_in_any_order :
    Request.AddAlike orderly mixed ∧
      sharedPortal.admits (.ofAdditions orderly) .unknown ⟨"acme", some "org"⟩ =
        sharedPortal.admits (.ofAdditions mixed) .unknown ⟨"acme", some "org"⟩ ∧
      (sharedPortal.admits (.ofAdditions mixed) .unknown ⟨"acme", some "org"⟩).value =
        (true, ⟨some "portal"⟩) := by
  obtain ⟨-, -, -, hadmits⟩ :=
    Request.order_of_unrelated_parameters_is_irrelevant orderly_addAlike_mixed
  exact ⟨orderly_addAlike_mixed, hadmits sharedPortal .unknown ⟨"acme", some "org"⟩, rfl⟩

end Payments

end RichAuthorization
