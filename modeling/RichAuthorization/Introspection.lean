import RichAuthorization.Service

/-!
Token introspection: what the answer about a token says of its details.
-/

namespace RichAuthorization

def detailsMember : String := "authorization_details"

namespace Service

def verifiedToken (s : Service) (query : TokenQuery) (response : IntrospectionResponse) :
    Traced Question (Except TokenError AccessToken) :=
  if response.tokenType = some s.settings.refreshTokenType then
    Traced.ask (.refreshToken query.token) (s.tokens.refresh query.token)
  else
    Traced.ask (.accessToken query.token s.settings.includeExpired)
      (s.tokens.access query.token s.settings.includeExpired)

def tokenContext (s : Service) (query : TokenQuery) (response : IntrospectionResponse) :
    Traced Question (Except ServiceError TokenContext) :=
  match response.context with
  | some known => do
    Traced.log .debug "Reusing validation context from the introspection response"
    pure (.ok known)
  | none => do
    match ← s.verifiedToken query response with
    | .ok token => pure (.ok ⟨query, response.report, some token⟩)
    | .error e => pure (.error (.ofTokenError e))

def detailsMembers (confirmed : DetailSet) : Json.Object :=
  if confirmed.isEmpty then .empty else .ofList [(detailsMember, confirmed.toJson)]

def confirmedLine (confirmed : DetailSet) : String :=
  if confirmed.isEmpty then "No validated authorization details for the token"
  else "Adding authorization details to introspection response"

def additionalData (s : Service) (ctx : RequestContext) (query : TokenQuery)
    (response : IntrospectionResponse) : Traced Question (Except ServiceError Json.Object) := do
  match ← s.tokenContext query response with
  | .error e => pure (.error e)
  | .ok token =>
    match ← s.validator.validatedForToken ctx token with
    | .error e => pure (.error e)
    | .ok confirmed =>
      Traced.log .debug (confirmedLine confirmed)
      pure (.ok (detailsMembers confirmed))

def errorLine : ServiceError → String
  | .processorFailed _ _ _ => "Authorization details validation failed"
  | .tokenLookup _ => "Introspected token could not be loaded"
  | .internal _ => "Introspection enrichment failed"

def introspect (s : Service) (ctx : RequestContext) (query : TokenQuery)
    (response : IntrospectionResponse) :
    Traced Question (Except IntrospectionError Json.Object) := do
  match ← s.additionalData ctx query response with
  | .ok data => pure (.ok data)
  | .error e =>
    Traced.log .error (errorLine e)
    pure (.error e.toIntrospectionError)

end Service

end RichAuthorization
