import RichAuthorization.Json.Decoder
import RichAuthorization.Text.Blank

/-!
The tenant and the organization that a request is served for.
-/

namespace RichAuthorization

open Json (Decoder Field RecordFormat)

structure RequestContext where
  tenant : String
  organization : Option String
deriving DecidableEq

namespace RequestContext

def defaultTenant : String := "carbon.super"

def defaultTenantId : Int32 := -1234

def default : RequestContext := ⟨defaultTenant, none⟩

instance : Inhabited RequestContext := ⟨default⟩

def withTenant (ctx : RequestContext) (tenant : String) : RequestContext :=
  { ctx with tenant }

def withOrganization (ctx : RequestContext) (organization : String) : RequestContext :=
  { ctx with organization := if Text.isBlank organization then none else some organization }

def isOrganizationScoped (ctx : RequestContext) : Bool :=
  ctx.organization.isSome

def toJson (ctx : RequestContext) : Json :=
  .record (("tenant_domain", .string ctx.tenant) ::
    ctx.organization.toList.map fun organization => ("organization_id", .string organization))

def format : RecordFormat RequestContext where
  name := "RequestContext"
  fields := [
    .required "tenant_domain" Decoder.string fun tenant ctx => { ctx with tenant },
    .withDefault "organization_id" Decoder.string.option
      fun organization ctx => { ctx with organization }]
  closed := false
  initial := default

def decode : Decoder RequestContext :=
  format.decode

end RequestContext

end RichAuthorization
