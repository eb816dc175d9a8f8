import RichAuthorization.Json.Decoder

/-!
Applications of clients: their records, where they are looked up, and how an application that was
shared with an organization leads to the one it was shared from.
-/

namespace RichAuthorization.Client

open RichAuthorization.Json (Decoder Field RecordFormat)

structure Application where
  name : String
  clientId : String
  bypass : Bool
deriving DecidableEq

namespace Application

def format : RecordFormat Application where
  name := "OAuthApp"
  fields := [
    .required "application_name" Decoder.string fun name app => { app with name },
    .required "client_id" Decoder.string fun clientId app => { app with clientId },
    .withDefault "bypass_client_credentials" Decoder.bool fun bypass app => { app with bypass }]
  closed := false
  initial := ⟨"", "", false⟩

def decode : Decoder Application :=
  format.decode

def toJson (app : Application) : Json :=
  .record [
    ("application_name", .string app.name),
    ("client_id", .string app.clientId),
    ("bypass_client_credentials", .bool app.bypass)]

end Application

inductive LookupError where
  | invalidClient (reason : String)
  | internal (reason : String)
deriving DecidableEq

def LookupError.message : LookupError → String
  | .invalidClient reason => "invalid client: " ++ reason
  | .internal reason => "application lookup failed: " ++ reason

inductive ManagementError where
  | notFound (reason : String)
  | internal (reason : String)
deriving DecidableEq

def ManagementError.message : ManagementError → String
  | .notFound reason => "application not found: " ++ reason
  | .internal reason => "application management failure: " ++ reason

structure ApplicationRegistry where
  find : String → String → Except LookupError Application

structure ApplicationManagement where
  /-- The resource that an inbound key of some type stands for in a tenant. -/
  resourceId : String → String → String → Except ManagementError String
  mainApplicationId : String → Except ManagementError String
  tenantId : String → Except ManagementError Int32
  application : String → Int32 → Except ManagementError (Option Application)

inductive Question where
  | application (clientId tenant : String)
  | resourceId (key inboundType tenant : String)
  | mainApplicationId (sharedId : String)
  | tenantId (applicationId : String)
  | applicationNamed (name : String) (tenantId : Int32)
deriving DecidableEq

end RichAuthorization.Client
