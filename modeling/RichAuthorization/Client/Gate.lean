import RichAuthorization.Client.Application
import RichAuthorization.Client.Request
import RichAuthorization.RequestContext
import RichAuthorization.Trace

/-!
The gate for public clients, which authenticate without a secret.

A client is admitted when all grant types of its request are allowed and its application may do
without a secret. An application that was shared with an organization takes that permission also
from the one it was shared from, but only through the authentication API. Where a lookup fails the
client is not admitted, or is judged by its own application; no failure goes further.
-/

namespace RichAuthorization.Client

open RichAuthorization.Json (Decoder Field RecordFormat)

structure GateSettings where
  allowedGrantTypes : List String
deriving DecidableEq

namespace GateSettings

def default : GateSettings := ⟨[]⟩

instance : Inhabited GateSettings := ⟨default⟩

def format : RecordFormat GateSettings where
  name := "PublicClientAuthnConfig"
  fields := [
    .withDefault "allowed_grant_types" Decoder.string.list
      fun allowedGrantTypes s => { s with allowedGrantTypes }]
  closed := true
  initial := default

def decode : Decoder GateSettings :=
  format.decode

def toJson (s : GateSettings) : Json :=
  .record [("allowed_grant_types", .strings s.allowedGrantTypes)]

end GateSettings

structure Gate where
  settings : GateSettings
  applications : ApplicationRegistry
  management : ApplicationManagement

namespace Gate

def name : String := "PublicClientAuthenticator"

def moduleName : String := "public-client-authn"

def priority : Int := 200

def inboundType : String := "oauth2"

def start (settings : GateSettings) (applications : ApplicationRegistry)
    (management : ApplicationManagement) : Traced Question Gate := do
  Traced.log .info "Initializing public client authenticator"
  if settings.allowedGrantTypes.isEmpty then
    Traced.log .warn
      "No grant types are configured for public clients; all of them will be refused"
  pure ⟨settings, applications, management⟩

def allowsGrantTypes (g : Gate) (r : Request) : Bool :=
  (r.bodyValues Request.grantTypeName).all fun grantType =>
    g.settings.allowedGrantTypes.contains grantType

def mainApplication (g : Gate) (clientId tenant : String) (shared : Application) :
    Traced Question (Except ManagementError (Option Application)) := do
  match ← Traced.ask (.resourceId clientId inboundType tenant)
      (g.management.resourceId clientId inboundType tenant) with
  | .error e => pure (.error e)
  | .ok sharedId =>
    match ← Traced.ask (.mainApplicationId sharedId) (g.management.mainApplicationId sharedId) with
    | .error e => pure (.error e)
    | .ok mainId =>
      match ← Traced.ask (.tenantId mainId) (g.management.tenantId mainId) with
      | .error e => pure (.error e)
      | .ok mainTenant =>
        Traced.ask (.applicationNamed shared.name mainTenant)
          (g.management.application shared.name mainTenant)

def mainBypass (g : Gate) (clientId tenant : String) (shared : Application) :
    Traced Question Bool := do
  match ← g.mainApplication clientId tenant shared with
  | .ok (some main) => pure main.bypass
  | .ok none => pure false
  | .error _ =>
    Traced.log .error "Failed to resolve the main application of a shared application"
    pure false

def bypass (g : Gate) (clientId : String) (r : Request) (ctx : RequestContext) :
    Traced Question (Except LookupError Bool) := do
  match ← Traced.ask (.application clientId ctx.tenant)
      (g.applications.find clientId ctx.tenant) with
  | .error e => pure (.error e)
  | .ok app =>
    if r.isApiBased && ctx.isOrganizationScoped then
      let fromMain ← g.mainBypass clientId ctx.tenant app
      pure (.ok (fromMain || app.bypass))
    else pure (.ok app.bypass)

def clientId (r : Request) (a : Authentication) : Option String × Authentication :=
  ((a.resolve r).clientId, a.resolve r)

def judgeClient (g : Gate) (clientId : String) (r : Request) (ctx : RequestContext) :
    Traced Question Bool := do
  match ← g.bypass clientId r ctx with
  | .ok true => pure true
  | .ok false =>
    Traced.log .debug "Application does not allow authentication without a client secret"
    pure false
  | .error (.invalidClient _) =>
    Traced.log .debug "Unknown client"
    pure false
  | .error (.internal _) =>
    Traced.log .error "Failed to look up application"
    pure false

def refuse (level : Level) (line : String) (a : Authentication) :
    Traced Question (Bool × Authentication) := do
  Traced.log level line
  pure (false, a)

def admits (g : Gate) (r : Request) (a : Authentication) (ctx : RequestContext) :
    Traced Question (Bool × Authentication) :=
  if g.settings.allowedGrantTypes.isEmpty then
    refuse .warn "No grant types are allowed for public clients" a
  else if !g.allowsGrantTypes r then
    refuse .debug "Grant type is not allowed for public clients" a
  else
    let (known, a) := clientId r a
    if r.clientId?.isNone then
      refuse .debug "Client id is not present in the request parameters" a
    else
      match Request.present known with
      | none => refuse .debug "Client id is not present in the request" a
      | some id => do
        if ← g.judgeClient id r ctx then pure (true, ⟨some id⟩) else pure (false, a)

def authenticate (_ : Request) (_ : Authentication) (_ : RequestContext) : Bool := true

end Gate

end RichAuthorization.Client
