import RichAuthorization.Proofs.Introspection

/-!
What introspection depends on: the tenant, and of what is known of the token the requested and the
granted details.
-/

namespace RichAuthorization

theorem Registry.supportedTypes_congr {ctx ctx' : RequestContext} (h : ctx.tenant = ctx'.tenant)
    (r : Registry) (catalog : Catalog) :
    r.supportedTypes catalog ctx = r.supportedTypes catalog ctx' := by
  simp only [supportedTypes, h]

namespace Validator

variable {ctx ctx' : RequestContext}

theorem allowedTypes_congr (h : ctx.tenant = ctx'.tenant) (v : Validator) :
    v.allowedTypes ctx = v.allowedTypes ctx' := by
  simp only [allowedTypes, Registry.supportedTypes_congr h]

theorem validate_congr (h : ctx.tenant = ctx'.tenant) (v : Validator)
    (requested granted : DetailSet) :
    v.validate ctx requested granted = v.validate ctx' requested granted := by
  simp only [validate, allowedTypes_congr h]

end Validator

structure TokenContext.Alike (token token' : TokenContext) : Prop where
  requested : token.query.requested = token'.query.requested
  granted : token.granted = token'.granted

theorem Validator.validatedForToken_congr {ctx ctx' : RequestContext} {token token' : TokenContext}
    (htenant : ctx.tenant = ctx'.tenant) (h : token.Alike token') (v : Validator) :
    v.validatedForToken ctx token = v.validatedForToken ctx' token' := by
  have heffective : effectiveRequest token = effectiveRequest token' := by
    simp only [effectiveRequest, h.requested, h.granted]
  simp only [validatedForToken, heffective, h.granted, validate_congr htenant]

namespace Service

variable {s : Service} {ctx ctx' : RequestContext} {query query' : TokenQuery}
  {response response' : IntrospectionResponse}

def describe (s : Service) (ctx : RequestContext) (token : TokenContext) :
    Traced Question (Except ServiceError Json.Object) := do
  match ← s.validator.validatedForToken ctx token with
  | .error e => pure (.error e)
  | .ok confirmed =>
    Traced.log .debug (confirmedLine confirmed)
    pure (.ok (detailsMembers confirmed))

theorem describe_congr {token token' : TokenContext} (htenant : ctx.tenant = ctx'.tenant)
    (h : token.Alike token') (tokens' : TokenStore) :
    s.describe ctx token = { s with tokens := tokens' }.describe ctx' token' := by
  simp only [describe, validator, Validator.validatedForToken_congr htenant h]

theorem additionalData_eq_of_some {token : TokenContext} (h : response.context = some token) :
    s.additionalData ctx query response = (do
      Traced.log .debug "Reusing validation context from the introspection response"
      s.describe ctx token) := by
  simp only [additionalData, tokenContext, h, bind_assoc, pure_bind]
  rfl

theorem additionalData_eq_of_none (h : response.context = none) :
    s.additionalData ctx query response = (do
      match ← s.verifiedToken query response with
      | .ok token => s.describe ctx ⟨query, response.report, some token⟩
      | .error e => pure (.error (.ofTokenError e))) := by
  simp only [additionalData, tokenContext, h, bind_assoc]
  congr 1
  funext answer
  cases answer <;> rfl

theorem verifiedToken_congr (htoken : query.token = query'.token)
    (hpath : response.tokenType = some s.settings.refreshTokenType ↔
      response'.tokenType = some s.settings.refreshTokenType) :
    s.verifiedToken query response = s.verifiedToken query' response' := by
  simp only [verifiedToken, htoken, hpath]

theorem introspect_congr {s' : Service}
    (h : s.additionalData ctx query response = s'.additionalData ctx' query' response') :
    s.introspect ctx query response = s'.introspect ctx' query' response' := by
  simp only [introspect, h]

theorem introspect_depends_on_token_context (htenant : ctx.tenant = ctx'.tenant) :
    (∀ tokens' query query' response response' token token',
      response.context = some token → response'.context = some token' →
      token.query.requested = token'.query.requested → token.granted = token'.granted →
      s.introspect ctx query response =
        { s with tokens := tokens' }.introspect ctx' query' response') ∧
    ∀ query query' response response',
      response.context = none → response'.context = none →
      query.token = query'.token → query.requested = query'.requested →
      (response.tokenType = some s.settings.refreshTokenType ↔
        response'.tokenType = some s.settings.refreshTokenType) →
      s.introspect ctx query response = s.introspect ctx' query' response' := by
  constructor
  · intro tokens' query query' response response' token token' hknown hknown' hrequested hgranted
    apply introspect_congr
    rw [additionalData_eq_of_some hknown, additionalData_eq_of_some hknown',
      describe_congr htenant ⟨hrequested, hgranted⟩ tokens']
  · intro query query' response response' hnone hnone' htoken hrequested hpath
    apply introspect_congr
    rw [additionalData_eq_of_none hnone, additionalData_eq_of_none hnone',
      verifiedToken_congr htoken hpath]
    congr 1
    funext answer
    cases answer with
    | error e => rfl
    | ok token =>
        have halike : TokenContext.Alike ⟨query, response.report, some token⟩
            ⟨query', response'.report, some token⟩ := ⟨hrequested, rfl⟩
        exact describe_congr htenant halike s.tokens

end Service

namespace Payments

def consented : TokenContext :=
  ⟨query, .blank, some { AccessToken.blank with details := granted }⟩

def otherConsented : TokenContext :=
  ⟨⟨"other", requested⟩, ⟨true, some "expired", ["openid"], some 7⟩,
    some ⟨"id", 3, "consumer", ["openid"], granted⟩⟩

def consentedResponse : IntrospectionResponse :=
  { IntrospectionResponse.blank with context := some consented }

def otherConsentedResponse : IntrospectionResponse :=
  ⟨true, none, some "openid", some 7, some "refresh_token", some otherConsented⟩

def bearerResponse : IntrospectionResponse :=
  ⟨true, some "expired", some "openid", some 7, some "Bearer", none⟩

def noTokens : TokenStore where
  access _ _ := .error (.invalid "unknown access token ID")
  refresh _ := .error (.invalid "unknown refresh token ID")

def subsidiary : RequestContext :=
  RequestContext.default.withOrganization "subsidiary"

theorem introspect_for_subsidiary :
    RequestContext.default.tenant = subsidiary.tenant ∧
      (service.introspect .default query consentedResponse).value = .ok answer ∧
      service.introspect .default query consentedResponse =
        { service with tokens := noTokens }.introspect subsidiary ⟨"third", .empty⟩
          otherConsentedResponse ∧
      (service.introspect .default query .blank).value = .ok answer ∧
      service.introspect .default query .blank =
        service.introspect subsidiary query bearerResponse := by
  have htenant : RequestContext.default.tenant = subsidiary.tenant := rfl
  obtain ⟨hknown, hloaded⟩ := Service.introspect_depends_on_token_context (s := service) htenant
  have hpath : IntrospectionResponse.blank.tokenType = some service.settings.refreshTokenType ↔
      bearerResponse.tokenType = some service.settings.refreshTokenType := by decide
  refine ⟨htenant, rfl, ?_, rfl, ?_⟩
  · exact hknown noTokens query ⟨"third", .empty⟩ consentedResponse otherConsentedResponse
      consented otherConsented rfl rfl rfl rfl
  · exact hloaded query query .blank bearerResponse rfl rfl rfl rfl hpath

end Payments

end RichAuthorization
