import RichAuthorization.Proofs.Introspection
import RichAuthorization.Proofs.RoundTrip

/-!
What an answer gets is nothing, or one member that says exactly which details were confirmed.
-/

namespace RichAuthorization

open Json (Decoder)

theorem Json.Object.toList_ofList_singleton (name : String) (v : Json) :
    (ofList [(name, v)]).toList = [(name, v)] := by
  simp [ofList, insert, empty, toList, Named.insert]

namespace Service

structure Carries (data : Json.Object) (confirmed : DetailSet) : Prop where
  empty_iff : data.toList = [] ↔ confirmed.toList = []
  sole : data.toList ≠ [] → ∃ items, data.toList = [("authorization_details", .array items)] ∧
    items ≠ [] ∧ items.map (Decoder.ofJson Detail.decode) = confirmed.toList.map .ok ∧
    DetailSet.decode.ofJson (.array items) = .ok confirmed

theorem toList_detailsMembers_of_eq_nil {confirmed : DetailSet} (h : confirmed.toList = []) :
    (detailsMembers confirmed).toList = [] := by
  simp [detailsMembers, DetailSet.isEmpty, h, Json.Object.toList, Json.Object.empty]

theorem toList_detailsMembers_of_ne_nil {confirmed : DetailSet} (h : confirmed.toList ≠ []) :
    (detailsMembers confirmed).toList = [("authorization_details", confirmed.toJson)] := by
  have hempty : confirmed.isEmpty = false := by simpa [DetailSet.isEmpty] using h
  rw [detailsMembers, hempty]
  exact Json.Object.toList_ofList_singleton detailsMember confirmed.toJson

theorem carries_detailsMembers (confirmed : DetailSet) :
    Carries (detailsMembers confirmed) confirmed where
  empty_iff := by
    refine ⟨fun h => Classical.byContradiction fun hne => ?_, toList_detailsMembers_of_eq_nil⟩
    rw [toList_detailsMembers_of_ne_nil hne] at h
    cases h
  sole hne := by
    have hconfirmed : confirmed.toList ≠ [] := fun h => hne (toList_detailsMembers_of_eq_nil h)
    refine ⟨confirmed.toList.map Detail.toJson, toList_detailsMembers_of_ne_nil hconfirmed,
      by simpa using hconfirmed, ?_, DetailSet.readsBack_toJson.ofJson confirmed⟩
    rw [List.map_map]
    exact List.map_congr_left fun d _ => Detail.readsBack_toJson.ofJson d

theorem introspect_carries_exactly {s : Service} {ctx : RequestContext} {query : TokenQuery}
    {response : IntrospectionResponse} {data : Json.Object}
    (h : (s.introspect ctx query response).value = .ok data) :
    ∃ token confirmed, (s.tokenContext query response).value = .ok token ∧
      (s.validator.validatedForToken ctx token).value = .ok confirmed ∧
      Carries data confirmed := by
  obtain ⟨token, confirmed, htoken, hconfirmed, rfl⟩ :=
    additionalData_value_eq_ok_iff.mp (introspect_value_eq_ok_iff.mp h)
  exact ⟨token, confirmed, htoken, hconfirmed, carries_detailsMembers confirmed⟩

end Service

namespace Payments

theorem introspect_carries_cancel :
    (service.introspect .default query .blank).value = .ok answer ∧
      answer.toList = [("authorization_details", .array [(detail ["cancel"]).toJson])] ∧
      ∃ token confirmed, (service.tokenContext query .blank).value = .ok token ∧
        (service.validator.validatedForToken .default token).value = .ok confirmed ∧
        Service.Carries answer confirmed := by
  have hanswer : (service.introspect .default query .blank).value = .ok answer := rfl
  exact ⟨hanswer, rfl, Service.introspect_carries_exactly hanswer⟩

end Payments

end RichAuthorization
