import RichAuthorization.Introspection
import RichAuthorization.Proofs.Detail
import RichAuthorization.Proofs.Json
import RichAuthorization.Proofs.Narrowing

/-!
Introspection reports nothing that the token was not granted.
-/

namespace RichAuthorization

theorem Validator.validatedForToken_value_eq_ok_iff {v : Validator} {ctx : RequestContext}
    {token : TokenContext} {confirmed : DetailSet} :
    (v.validatedForToken ctx token).value = .ok confirmed ↔
      ∃ o, (v.validate ctx (effectiveRequest token) token.granted).value = .ok o ∧
        o.validated = confirmed := by
  simp only [validatedForToken, Traced.bind_value]
  cases (v.validate ctx (effectiveRequest token) token.granted).value with
  | error e => simp
  | ok o => simp

namespace Service

def Reports (data : Json.Object) (d : Detail) : Prop :=
  ∃ v items, data.find? detailsMember = some v ∧ v.items? = some items ∧ d.toJson ∈ items

theorem find?_detailsMembers {confirmed : DetailSet} {v : Json} :
    (detailsMembers confirmed).find? detailsMember = some v ↔
      confirmed.isEmpty = false ∧ v = confirmed.toJson := by
  simp only [detailsMembers]
  split
  · next h => simp [h]
  · next h => simp [h, Json.Object.ofList, eq_comm]

theorem mem_of_reports_detailsMembers {confirmed : DetailSet} {d : Detail}
    (h : Reports (detailsMembers confirmed) d) : d ∈ confirmed.toList := by
  obtain ⟨v, items, hfind, hitems, hd⟩ := h
  obtain ⟨-, rfl⟩ := find?_detailsMembers.mp hfind
  rw [DetailSet.toJson, Json.items?_array, Option.some.injEq] at hitems
  subst hitems
  obtain ⟨d', hd', heq⟩ := List.mem_map.mp hd
  rwa [← Detail.toJson_injective heq]

variable {s : Service} {ctx : RequestContext} {query : TokenQuery}
  {response : IntrospectionResponse} {data : Json.Object}

theorem additionalData_value_eq_ok_iff :
    (s.additionalData ctx query response).value = .ok data ↔
      ∃ token confirmed, (s.tokenContext query response).value = .ok token ∧
        (s.validator.validatedForToken ctx token).value = .ok confirmed ∧
        data = detailsMembers confirmed := by
  simp only [additionalData, Traced.bind_value]
  cases (s.tokenContext query response).value with
  | error e => simp
  | ok token =>
      simp only [Traced.bind_value]
      cases hconfirmed : (s.validator.validatedForToken ctx token).value with
      | error e => simp [hconfirmed]
      | ok confirmed => simp [hconfirmed, eq_comm (a := data)]

theorem introspect_value_eq_ok_iff :
    (s.introspect ctx query response).value = .ok data ↔
      (s.additionalData ctx query response).value = .ok data := by
  simp only [introspect, Traced.bind_value]
  cases (s.additionalData ctx query response).value with
  | error e => simp
  | ok found => simp

theorem introspect_reports_only_granted (h : (s.introspect ctx query response).value = .ok data) :
    ∃ token, (s.tokenContext query response).value = .ok token ∧
      ∀ (d : Detail) (rule : TypeRule), Reports data d →
        s.registry.find? d.type = some rule.processor → rule.subsetOfEmpty = false →
        d ∈ (Validator.effectiveRequest token).toList ∧
          s.validator.SupportedBy ctx d.type rule.processor ∧
          (∃ g ∈ token.granted.toList, g.type = d.type) ∧
          (rule.matching = .structural →
            ∃ g ∈ token.granted.toList, g.type = d.type ∧ g.covers d = true) := by
  obtain ⟨token, confirmed, htoken, hconfirmed, rfl⟩ :=
    additionalData_value_eq_ok_iff.mp (introspect_value_eq_ok_iff.mp h)
  obtain ⟨o, ho, rfl⟩ := Validator.validatedForToken_value_eq_ok_iff.mp hconfirmed
  refine ⟨token, htoken, ?_⟩
  intro d rule hreports hfind hstrict
  have hd := mem_of_reports_detailsMembers hreports
  obtain ⟨hrequested, p, hp, hjudge⟩ := (Validator.mem_validated_iff ho).mp hd
  obtain rfl : p = rule.processor := Option.some.inj (hp.registered.symm.trans hfind)
  obtain ⟨hgranted, hstructural⟩ := (TypeRule.judge_ofType_eq_true_iff hstrict).mp hjudge
  refine ⟨hrequested, hp, hgranted, ?_⟩
  intro hrule
  obtain ⟨-, -, hcovers⟩ := hstructural hrule
  exact hcovers

end Service

namespace Payments

def tokens : TokenStore where
  access _ _ := .ok { AccessToken.blank with details := granted }
  refresh _ := .error (.invalid "unknown refresh token ID")

def service : Service :=
  ⟨.default, registry, catalog, tokens⟩

def query : TokenQuery :=
  ⟨"token", requested⟩

def answer : Json.Object :=
  Service.detailsMembers (.ofList [detail ["cancel"]])

theorem introspect_reports_cancel :
    (service.introspect .default query .blank).value = .ok answer ∧
      Service.Reports answer (detail ["cancel"]) ∧
      ∃ token, (service.tokenContext query .blank).value = .ok token ∧
        detail ["cancel"] ∈ (Validator.effectiveRequest token).toList ∧
        service.validator.SupportedBy .default "payment" rule.processor ∧
        (∃ g ∈ token.granted.toList, g.type = "payment") ∧
        (rule.matching = .structural →
          ∃ g ∈ token.granted.toList, g.type = "payment" ∧ g.covers (detail ["cancel"]) = true) := by
  have hanswer : (service.introspect .default query .blank).value = .ok answer := rfl
  have hreports : Service.Reports answer (detail ["cancel"]) :=
    ⟨_, _, rfl, rfl, List.mem_singleton_self _⟩
  obtain ⟨token, htoken, hgranted⟩ := Service.introspect_reports_only_granted hanswer
  exact ⟨hanswer, hreports, token, htoken, hgranted _ rule hreports rfl rfl⟩

end Payments

end RichAuthorization
