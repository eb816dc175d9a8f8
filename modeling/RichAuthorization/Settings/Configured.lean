import RichAuthorization.Settings.Basic

/-!
Where types, tokens and applications are looked up when all of them come from the settings.
-/

namespace RichAuthorization.Settings

def configuredCatalog (s : Settings) : Catalog where
  list _ tenant := .ok ((s.catalog.find? tenant).getD [])

def configuredToken (s : Settings) (identifier : String) : Except TokenError AccessToken :=
  match s.tokens.find? identifier with
  | some token => .ok token
  | none => .error (.invalid "token is not configured")

def configuredTokens (s : Settings) : TokenStore where
  access identifier _ := s.configuredToken identifier
  refresh := s.configuredToken

def configuredApplications (s : Settings) : Client.ApplicationRegistry where
  find clientId _ :=
    match s.applications.reverse.find? fun app => app.clientId = clientId with
    | some app => .ok app
    | none => .error (.invalidClient clientId)

def configuredManagement : Client.ApplicationManagement where
  resourceId key _ _ := .error (.notFound key)
  mainApplicationId sharedId := .error (.notFound sharedId)
  tenantId applicationId := .error (.notFound applicationId)
  application _ _ := .ok none

/-- Starts a service from the settings alone, around a registry and with the processors that came
with the program. The rules of the settings are registered last; the number says how many were
accepted. -/
def startService (s : Settings) (registry : Registry) (discovered : List Processor) :
    Traced Question (Except StartError (Nat × Service)) := do
  match ← Service.start s.service registry discovered s.configuredCatalog s.configuredTokens with
  | .error e => pure (.error e)
  | .ok service =>
    let (count, registry) ← service.registry.registerStatic s.rules
    pure (.ok (count, { service with registry }))

def startGate (s : Settings) : Traced Client.Question Client.Gate :=
  Client.Gate.start s.gate s.configuredApplications configuredManagement

end RichAuthorization.Settings
