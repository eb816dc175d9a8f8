import RichAuthorization.Client.Gate
import RichAuthorization.Service
import RichAuthorization.StaticRule

/-!
The settings of the tool: of its parts, and the types, tokens and applications it knows of.
-/

namespace RichAuthorization

open Json (Decoder Field RecordFormat)

structure LoggingSettings where
  level : String
  json : Bool
deriving DecidableEq

namespace LoggingSettings

def default : LoggingSettings := ⟨"info", false⟩

def format : RecordFormat LoggingSettings where
  name := "LoggingConfig"
  fields := [
    .withDefault "level" Decoder.string fun level s => { s with level },
    .withDefault "json" Decoder.bool fun json s => { s with json }]
  closed := true
  initial := default

def decode : Decoder LoggingSettings :=
  format.decode

def toJson (s : LoggingSettings) : Json :=
  .record [("level", .string s.level), ("json", .bool s.json)]

end LoggingSettings

structure Settings where
  logging : LoggingSettings
  service : ServiceSettings
  rules : StaticRules
  gate : Client.GateSettings
  catalog : NameMap (List DetailType)
  tokens : NameMap AccessToken
  applications : List Client.Application

namespace Settings

def default : Settings := ⟨.default, .default, .empty, .default, .empty, .empty, []⟩

instance : Inhabited Settings := ⟨default⟩

def format : RecordFormat Settings where
  name := "ToolConfig"
  fields := [
    .withDefault "logging" LoggingSettings.decode fun logging s => { s with logging },
    .withDefault "rar" ServiceSettings.decode fun service s => { s with service },
    .withDefault "static_rar_plugin" StaticRules.decode fun rules s => { s with rules },
    .withDefault "public_client_authn" Client.GateSettings.decode fun gate s => { s with gate },
    .withDefault "catalog" (Decoder.nameMap DetailType.decode.list)
      fun catalog s => { s with catalog },
    .withDefault "tokens" (Decoder.nameMap AccessToken.decode) fun tokens s => { s with tokens },
    .withDefault "applications" Client.Application.decode.list
      fun applications s => { s with applications }]
  closed := true
  initial := default

def decode : Decoder Settings :=
  format.decode

def mapJson {β : Type} (value : β → Json) (map : NameMap β) : Json :=
  .record (map.entries.map fun entry => (entry.1, value entry.2))

def toJson (s : Settings) : Json :=
  .record [
    ("logging", s.logging.toJson),
    ("rar", s.service.toJson),
    ("static_rar_plugin", s.rules.toJson),
    ("public_client_authn", s.gate.toJson),
    ("catalog", mapJson (fun types => .array (types.map DetailType.toJson)) s.catalog),
    ("tokens", mapJson AccessToken.toJson s.tokens),
    ("applications", .array (s.applications.map Client.Application.toJson))]

end Settings

end RichAuthorization
