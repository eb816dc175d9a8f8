import RichAuthorization.Validation

/-!
The service: the settings, the registry of processors, and where types and tokens are looked up.
-/

namespace RichAuthorization

open Json (Decoder Field RecordFormat)

structure ServiceSettings where
  catalogRequired : Bool
  /-- The token type by which introspection marks a refresh token. -/
  refreshTokenType : String
  includeExpired : Bool
deriving DecidableEq

namespace ServiceSettings

def default : ServiceSettings := ⟨true, "refresh_token", false⟩

instance : Inhabited ServiceSettings := ⟨default⟩

def format : RecordFormat ServiceSettings where
  name := "RarConfig"
  fields := [
    .withDefault "require_catalog_registration" Decoder.bool
      fun catalogRequired s => { s with catalogRequired },
    .withDefault "refresh_token_type" Decoder.string
      fun refreshTokenType s => { s with refreshTokenType },
    .withDefault "include_expired_access_tokens" Decoder.bool
      fun includeExpired s => { s with includeExpired }]
  closed := true
  initial := default

def decode : Decoder ServiceSettings :=
  format.decode

def toJson (s : ServiceSettings) : Json :=
  .record [
    ("require_catalog_registration", .bool s.catalogRequired),
    ("refresh_token_type", .string s.refreshTokenType),
    ("include_expired_access_tokens", .bool s.includeExpired)]

end ServiceSettings

inductive StartError where
  | blankRefreshTokenType
deriving DecidableEq

def StartError.message : StartError → String
  | .blankRefreshTokenType => "refresh_token_type must not be blank"

structure Service where
  settings : ServiceSettings
  registry : Registry
  catalog : Catalog
  tokens : TokenStore

namespace Service

def name : String := "rar"

def start (settings : ServiceSettings) (registry : Registry) (discovered : List Processor)
    (catalog : Catalog) (tokens : TokenStore) : Traced Question (Except StartError Service) := do
  if Text.isBlank settings.refreshTokenType then
    pure (.error .blankRefreshTokenType)
  else
    Traced.log .info "Initializing rar module"
    let (_, registry) ← registry.registerDiscovered discovered
    Traced.log .info "Authorization details processors registered"
    pure (.ok ⟨settings, registry, catalog, tokens⟩)

def validator (s : Service) : Validator :=
  ⟨s.registry, s.catalog, s.settings.catalogRequired⟩

end Service

end RichAuthorization
