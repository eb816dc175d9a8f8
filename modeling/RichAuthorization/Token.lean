import RichAuthorization.DetailSet
import RichAuthorization.Text.Blank

/-!
Tokens, where they are kept, and what is known of a token while it is validated.
-/

namespace RichAuthorization

open Json (Decoder Field RecordFormat)

structure AccessToken where
  id : String
  tenantId : Int32
  consumerKey : String
  scopes : List String
  details : DetailSet

namespace AccessToken

def blank : AccessToken := ⟨"", 0, "", [], .empty⟩

def toJson (t : AccessToken) : Json :=
  .record [
    ("token_id", .string t.id),
    ("tenant_id", .int t.tenantId.toInt),
    ("consumer_key", .string t.consumerKey),
    ("scopes", .strings t.scopes),
    ("authorization_details", t.details.toJson)]

def format : RecordFormat AccessToken where
  name := "AccessToken"
  fields := [
    .required "token_id" Decoder.string fun id t => { t with id },
    .required "tenant_id" Decoder.int32 fun tenantId t => { t with tenantId },
    .required "consumer_key" Decoder.string fun consumerKey t => { t with consumerKey },
    .withDefault "scopes" Decoder.string.list fun scopes t => { t with scopes },
    .withDefault "authorization_details" DetailSet.decode fun details t => { t with details }]
  closed := false
  initial := blank

def decode : Decoder AccessToken :=
  format.decode

end AccessToken

inductive TokenError where
  | invalid (reason : String)
  | internal (reason : String)
deriving DecidableEq

def TokenError.message : TokenError → String
  | .invalid reason => "invalid token: " ++ reason
  | .internal reason => "internal error: " ++ reason

structure TokenStore where
  /-- Access tokens; the flag says whether expired ones count. -/
  access : String → Bool → Except TokenError AccessToken
  refresh : String → Except TokenError AccessToken

structure TokenReport where
  valid : Bool
  error : Option String
  scope : List String
  expiry : Option Int64
deriving DecidableEq

namespace TokenReport

def blank : TokenReport := ⟨false, none, [], none⟩

def toJson (r : TokenReport) : Json :=
  .record [
    ("valid", .bool r.valid),
    ("error_msg", .option .string r.error),
    ("scope", .strings r.scope),
    ("expiry_time", .option (fun n => .int n.toInt) r.expiry)]

def format : RecordFormat TokenReport where
  name := "TokenValidationResponse"
  fields := [
    .required "valid" Decoder.bool fun valid r => { r with valid },
    .nullable "error_msg" Decoder.string fun error r => { r with error },
    .required "scope" Decoder.string.list fun scope r => { r with scope },
    .nullable "expiry_time" Decoder.int64 fun expiry r => { r with expiry }]
  closed := false
  initial := blank

def decode : Decoder TokenReport :=
  format.decode

end TokenReport

structure TokenQuery where
  token : String
  requested : DetailSet

structure TokenContext where
  query : TokenQuery
  report : TokenReport
  token : Option AccessToken

def TokenContext.granted (ctx : TokenContext) : DetailSet :=
  match ctx.token with
  | some token => token.details
  | none => .empty

structure IntrospectionResponse where
  active : Bool
  error : Option String
  scope : Option String
  expiry : Option Int64
  tokenType : Option String
  context : Option TokenContext

namespace IntrospectionResponse

def blank : IntrospectionResponse := ⟨false, none, none, none, none, none⟩

def report (r : IntrospectionResponse) : TokenReport :=
  ⟨r.active, r.error, (r.scope.map Text.words).getD [], r.expiry⟩

end IntrospectionResponse

end RichAuthorization
