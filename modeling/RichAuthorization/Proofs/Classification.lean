import RichAuthorization.Proofs.Introspection
import RichAuthorization.Proofs.Questions

/-!
How introspection fails: the token cannot be loaded, or a processor fails, and in no other way.
-/

namespace RichAuthorization

namespace Question

def isLookup : Question → Bool
  | .accessToken _ _ => true
  | .refreshToken _ => true
  | _ => false

end Question

namespace Validator

variable {v : Validator} {ctx : RequestContext} {requested granted : DetailSet}

theorem isLookup_of_asksAbout {d : Detail} {q : Question} (h : v.AsksAbout ctx granted d q) :
    q.isLookup = false := by
  cases h with
  | processor _ _ _ => rfl

theorem isLookup_of_mem_judgeAll {details : List Detail} {q : Question}
    (h : q ∈ (judgeAll (v.matcherFor? ctx granted) details).questions) :
    q.isLookup = false := by
  obtain ⟨reached, -, hasked⟩ : ∃ reached, v.Reaches ctx granted details reached ∧ _ :=
    exists_reaches_judgeAll details
  generalize (judgeAll (v.matcherFor? ctx granted) details).questions = asked at h hasked
  generalize (reached.filter fun d => v.Supports ctx d.type) = supported at hasked
  induction hasked with
  | nil => cases h
  | cons hhead _ ih =>
      rcases List.mem_cons.mp h with rfl | h
      · exact isLookup_of_asksAbout hhead
      · exact ih h

theorem isLookup_of_mem_allowedTypes {q : Question} (h : q ∈ (v.allowedTypes ctx).questions) :
    q.isLookup = false := by
  rw [questions_allowedTypes] at h
  split at h
  · rw [List.mem_singleton.mp h]
    rfl
  · cases h

theorem isLookup_of_mem_validate {q : Question}
    (h : q ∈ (v.validate ctx requested granted).questions) : q.isLookup = false := by
  cases hempty : requested.isEmpty with
  | true =>
      rw [questions_validate_of_isEmpty hempty] at h
      cases h
  | false =>
      rw [questions_validate hempty, List.mem_append] at h
      rcases h with h | h
      · exact isLookup_of_mem_allowedTypes h
      · exact isLookup_of_mem_judgeAll h

theorem questions_validatedForToken {token : TokenContext} :
    (v.validatedForToken ctx token).questions =
      (v.validate ctx (effectiveRequest token) token.granted).questions := by
  simp only [validatedForToken, Traced.questions_bind]
  cases (v.validate ctx (effectiveRequest token) token.granted).value <;> simp

theorem validatedForToken_value_eq_error_iff {token : TokenContext} {error : ServiceError} :
    (v.validatedForToken ctx token).value = .error error ↔
      (v.validate ctx (effectiveRequest token) token.granted).value = .error error := by
  simp only [validatedForToken, Traced.bind_value]
  cases (v.validate ctx (effectiveRequest token) token.granted).value <;> simp

theorem toIntrospectionError_of_validate {error : ServiceError}
    (h : (v.validate ctx requested granted).value = .error error) :
    error.toIntrospectionError = .validationFailed error.message := by
  obtain ⟨_, _, _, _, _, hfails⟩ := validate_value_eq_error_iff.mp h
  cases hfails with
  | processor _ _ => rfl

end Validator

namespace Service

inductive LooksUp (s : Service) (query : TokenQuery) (response : IntrospectionResponse) :
    Question → Except TokenError AccessToken → Prop
  | refresh : response.context = none → response.tokenType = some s.settings.refreshTokenType →
      LooksUp s query response (.refreshToken query.token) (s.tokens.refresh query.token)
  | access : response.context = none → response.tokenType ≠ some s.settings.refreshTokenType →
      LooksUp s query response (.accessToken query.token s.settings.includeExpired)
        (s.tokens.access query.token s.settings.includeExpired)

inductive Knows (s : Service) (query : TokenQuery) (response : IntrospectionResponse) :
    TokenContext → Prop
  | given {token : TokenContext} : response.context = some token → Knows s query response token
  | loaded {q : Question} {token : AccessToken} : s.LooksUp query response q (.ok token) →
      Knows s query response ⟨query, response.report, some token⟩

def LookupFails (s : Service) (query : TokenQuery) (response : IntrospectionResponse)
    (e : TokenError) : Prop :=
  ∃ q, s.LooksUp query response q (.error e)

def ValidationFails (s : Service) (ctx : RequestContext) (query : TokenQuery)
    (response : IntrospectionResponse) (error : ServiceError) : Prop :=
  ∃ token, s.Knows query response token ∧
    (s.validator.validate ctx (Validator.effectiveRequest token) token.granted).value =
      .error error

section

variable {s : Service} {ctx : RequestContext} {query : TokenQuery}
  {response : IntrospectionResponse}

theorem exists_looksUp_iff :
    (∃ q answer, s.LooksUp query response q answer) ↔ response.context = none := by
  constructor
  · rintro ⟨_, _, ⟨hnone, -⟩ | ⟨hnone, -⟩⟩
    · exact hnone
    · exact hnone
  · intro hnone
    by_cases htype : response.tokenType = some s.settings.refreshTokenType
    · exact ⟨_, _, .refresh hnone htype⟩
    · exact ⟨_, _, .access hnone htype⟩

theorem LooksUp.context_eq_none {q : Question} {answer : Except TokenError AccessToken}
    (h : s.LooksUp query response q answer) : response.context = none :=
  exists_looksUp_iff.mp ⟨q, answer, h⟩

theorem LooksUp.isLookup {q : Question} {answer : Except TokenError AccessToken}
    (h : s.LooksUp query response q answer) : q.isLookup = true := by
  cases h <;> rfl

theorem LooksUp.verifiedToken_eq {q : Question} {answer : Except TokenError AccessToken}
    (h : s.LooksUp query response q answer) :
    s.verifiedToken query response = Traced.ask q answer := by
  cases h with
  | refresh _ htype => exact if_pos htype
  | access _ htype => exact if_neg htype

theorem LooksUp.questions_tokenContext {q : Question} {answer : Except TokenError AccessToken}
    (h : s.LooksUp query response q answer) :
    (s.tokenContext query response).questions = [q] := by
  simp only [tokenContext, h.context_eq_none, h.verifiedToken_eq, Traced.questions_bind,
    Traced.questions_ask, Traced.ask_value]
  cases answer <;> simp

theorem LooksUp.value_tokenContext {q : Question} {answer : Except TokenError AccessToken}
    (h : s.LooksUp query response q answer) :
    (s.tokenContext query response).value = match answer with
      | .ok token => .ok ⟨query, response.report, some token⟩
      | .error e => .error (.tokenLookup e.message) := by
  simp only [tokenContext, h.context_eq_none, h.verifiedToken_eq, Traced.bind_value,
    Traced.ask_value]
  cases answer <;> rfl

theorem questions_tokenContext_of_some {known : TokenContext}
    (h : response.context = some known) : (s.tokenContext query response).questions = [] := by
  simp [tokenContext, h]

theorem value_tokenContext_of_some {known : TokenContext} (h : response.context = some known) :
    (s.tokenContext query response).value = .ok known := by
  simp [tokenContext, h]

theorem tokenContext_value_eq_ok_iff {token : TokenContext} :
    (s.tokenContext query response).value = .ok token ↔ s.Knows query response token := by
  constructor
  · intro h
    cases hcontext : response.context with
    | some known =>
        rw [value_tokenContext_of_some hcontext, Except.ok.injEq] at h
        exact .given (h ▸ hcontext)
    | none =>
        obtain ⟨q, answer, hlookup⟩ := exists_looksUp_iff.mpr hcontext
        rw [hlookup.value_tokenContext] at h
        cases answer with
        | ok found =>
            cases h
            exact .loaded hlookup
        | error e => cases h
  · rintro (hcontext | hlookup)
    · exact value_tokenContext_of_some hcontext
    · exact hlookup.value_tokenContext

theorem tokenContext_value_eq_error_iff {error : ServiceError} :
    (s.tokenContext query response).value = .error error ↔
      ∃ e, s.LookupFails query response e ∧ error = .tokenLookup e.message := by
  constructor
  · intro h
    cases hcontext : response.context with
    | some known =>
        rw [value_tokenContext_of_some hcontext] at h
        cases h
    | none =>
        obtain ⟨q, answer, hlookup⟩ := exists_looksUp_iff.mpr hcontext
        rw [hlookup.value_tokenContext] at h
        cases answer with
        | ok found => cases h
        | error e =>
            cases h
            exact ⟨e, ⟨q, hlookup⟩, rfl⟩
  · rintro ⟨e, ⟨q, hlookup⟩, rfl⟩
    exact hlookup.value_tokenContext

theorem questions_introspect :
    (s.introspect ctx query response).questions =
      (s.additionalData ctx query response).questions := by
  simp only [introspect, Traced.questions_bind]
  cases (s.additionalData ctx query response).value <;> simp

theorem questions_introspect_of_error {error : ServiceError}
    (h : (s.tokenContext query response).value = .error error) :
    (s.introspect ctx query response).questions =
      (s.tokenContext query response).questions := by
  rw [questions_introspect]
  simp [additionalData, h]

theorem questions_introspect_of_ok {token : TokenContext}
    (h : (s.tokenContext query response).value = .ok token) :
    (s.introspect ctx query response).questions = (s.tokenContext query response).questions ++
      (s.validator.validate ctx (Validator.effectiveRequest token) token.granted).questions := by
  rw [questions_introspect]
  simp only [additionalData, Traced.questions_bind, h, Validator.questions_validatedForToken]
  cases (s.validator.validatedForToken ctx token).value <;> simp

theorem filter_isLookup_introspect :
    (s.introspect ctx query response).questions.filter Question.isLookup =
      (s.tokenContext query response).questions.filter Question.isLookup := by
  cases h : (s.tokenContext query response).value with
  | error e => rw [questions_introspect_of_error h]
  | ok token =>
      have hnone : (s.validator.validate ctx (Validator.effectiveRequest token)
          token.granted).questions.filter Question.isLookup = [] := by
        refine List.filter_eq_nil_iff.mpr fun q hq => ?_
        simp [Validator.isLookup_of_mem_validate hq]
      rw [questions_introspect_of_ok h, List.filter_append, hnone, List.append_nil]

theorem LooksUp.exists_questions {q : Question} {answer : Except TokenError AccessToken}
    (h : s.LooksUp query response q answer) :
    ∃ later, (s.introspect ctx query response).questions = q :: later := by
  cases hvalue : (s.tokenContext query response).value with
  | error e =>
      rw [questions_introspect_of_error hvalue, h.questions_tokenContext]
      exact ⟨[], rfl⟩
  | ok token =>
      rw [questions_introspect_of_ok hvalue, h.questions_tokenContext]
      exact ⟨_, rfl⟩

theorem additionalData_value_eq_error_iff {error : ServiceError} :
    (s.additionalData ctx query response).value = .error error ↔
      (∃ e, s.LookupFails query response e ∧ error = .tokenLookup e.message) ∨
        s.ValidationFails ctx query response error := by
  simp only [← tokenContext_value_eq_error_iff, ValidationFails, ← tokenContext_value_eq_ok_iff,
    ← Validator.validatedForToken_value_eq_error_iff, additionalData, Traced.bind_value]
  cases (s.tokenContext query response).value with
  | error e => simp
  | ok token =>
      simp only [Traced.bind_value]
      cases hconfirmed : (s.validator.validatedForToken ctx token).value <;> simp [hconfirmed]

theorem introspect_value_eq_error_iff {error : IntrospectionError} :
    (s.introspect ctx query response).value = .error error ↔
      (∃ e, s.LookupFails query response e ∧ error = .tokenLookup e.message) ∨
        ∃ e, s.ValidationFails ctx query response e ∧ error = .validationFailed e.message := by
  have hmap : (s.introspect ctx query response).value = .error error ↔
      ∃ e, (s.additionalData ctx query response).value = .error e ∧
        error = e.toIntrospectionError := by
    simp only [introspect, Traced.bind_value]
    cases (s.additionalData ctx query response).value <;> simp [eq_comm]
  simp only [hmap, additionalData_value_eq_error_iff]
  constructor
  · rintro ⟨_, ⟨e, hlookup, rfl⟩ | hfails, rfl⟩
    · exact .inl ⟨e, hlookup, rfl⟩
    · obtain ⟨token, hknown, hvalidate⟩ := hfails
      exact .inr ⟨_, ⟨token, hknown, hvalidate⟩,
        Validator.toIntrospectionError_of_validate hvalidate⟩
  · rintro (⟨e, hlookup, rfl⟩ | ⟨e, ⟨token, hknown, hvalidate⟩, rfl⟩)
    · exact ⟨_, .inl ⟨e, hlookup, rfl⟩, rfl⟩
    · exact ⟨e, .inr ⟨token, hknown, hvalidate⟩,
        (Validator.toIntrospectionError_of_validate hvalidate).symm⟩

theorem exists_introspect_ok_iff :
    (∃ data, (s.introspect ctx query response).value = .ok data) ↔
      (∀ e, ¬ s.LookupFails query response e) ∧
        ∀ e, ¬ s.ValidationFails ctx query response e := by
  have hnot : (∃ data, (s.introspect ctx query response).value = .ok data) ↔
      ∀ error, (s.introspect ctx query response).value ≠ .error error := by
    cases (s.introspect ctx query response).value <;> simp
  simp only [hnot, ne_eq, introspect_value_eq_error_iff, not_or]
  constructor
  · intro h
    exact ⟨fun e he => (h (.tokenLookup e.message)).1 ⟨e, he, rfl⟩,
      fun e he => (h (.validationFailed e.message)).2 ⟨e, he, rfl⟩⟩
  · rintro ⟨hlookup, hvalidation⟩ error
    exact ⟨fun ⟨e, he, _⟩ => hlookup e he, fun ⟨e, he, _⟩ => hvalidation e he⟩

end

theorem introspect_classifies_failures (s : Service) (ctx : RequestContext) (query : TokenQuery)
    (response : IntrospectionResponse) :
    ((∃ q answer, s.LooksUp query response q answer) ↔ response.context = none) ∧
      (∀ q answer, s.LooksUp query response q answer →
        (s.introspect ctx query response).questions.filter Question.isLookup = [q] ∧
          ∃ later, (s.introspect ctx query response).questions = q :: later) ∧
      (response.context ≠ none →
        (s.introspect ctx query response).questions.filter Question.isLookup = []) ∧
      (∀ q e, s.LooksUp query response q (.error e) →
        (s.introspect ctx query response).questions = [q]) ∧
      (∀ reason, (s.introspect ctx query response).value = .error (.tokenLookup reason) ↔
        ∃ e, s.LookupFails query response e ∧ reason = e.message) ∧
      (∀ reason, (s.introspect ctx query response).value = .error (.validationFailed reason) ↔
        ∃ e, s.ValidationFails ctx query response e ∧ reason = e.message) ∧
      (∀ reason, (s.introspect ctx query response).value ≠ .error (.internal reason)) ∧
      ((∃ data, (s.introspect ctx query response).value = .ok data) ↔
        (∀ e, ¬ s.LookupFails query response e) ∧
          ∀ e, ¬ s.ValidationFails ctx query response e) := by
  refine ⟨exists_looksUp_iff, ?_, ?_, ?_, ?_, ?_, ?_, exists_introspect_ok_iff⟩
  · intro q answer hlookup
    refine ⟨?_, hlookup.exists_questions⟩
    rw [filter_isLookup_introspect, hlookup.questions_tokenContext]
    simp [hlookup.isLookup]
  · intro hcontext
    obtain ⟨known, hknown⟩ := Option.ne_none_iff_exists'.mp hcontext
    rw [filter_isLookup_introspect, questions_tokenContext_of_some hknown]
    rfl
  · intro q e hlookup
    rw [questions_introspect_of_error hlookup.value_tokenContext, hlookup.questions_tokenContext]
  · intro reason
    simp [introspect_value_eq_error_iff]
  · intro reason
    simp [introspect_value_eq_error_iff]
  · intro reason
    simp [introspect_value_eq_error_iff]

end Service

namespace Payments

def refreshResponse : IntrospectionResponse :=
  { IntrospectionResponse.blank with tokenType := some "refresh_token" }

theorem introspect_unknown_refresh_token :
    service.LooksUp query refreshResponse (.refreshToken "token")
        (.error (.invalid "unknown refresh token ID")) ∧
      (service.introspect .default query refreshResponse).questions = [.refreshToken "token"] ∧
      (service.introspect .default query refreshResponse).value =
        .error (.tokenLookup "invalid token: unknown refresh token ID") := by
  have hlookup : service.LooksUp query refreshResponse (.refreshToken "token")
      (.error (.invalid "unknown refresh token ID")) := .refresh rfl rfl
  obtain ⟨-, -, -, hasked, hfails, -⟩ :=
    Service.introspect_classifies_failures service .default query refreshResponse
  exact ⟨hlookup, hasked _ _ hlookup, (hfails _).mpr ⟨_, ⟨_, hlookup⟩, rfl⟩⟩

end Payments

end RichAuthorization
