import RichAuthorization.Json.Decoder

/-!
The types of details that tenants declare, and the catalog that lists them.
-/

namespace RichAuthorization

open Json (Decoder Field RecordFormat)

structure DetailType where
  id : Option String
  type : String
  name : Option String
  description : Option String
  schema : Option Json

namespace DetailType

def named (type : String) : DetailType :=
  ⟨none, type, none, none, none⟩

def textMember (name : String) (value : Option String) : List (String × Json) :=
  value.toList.map fun text => (name, .string text)

def toJson (t : DetailType) : Json :=
  .record (textMember "id" t.id ++ [("type", .string t.type)] ++ textMember "name" t.name
    ++ textMember "description" t.description ++ t.schema.toList.map fun v => ("schema", v))

def format : RecordFormat DetailType where
  name := "AuthorizationDetailsType"
  fields := [
    .withDefault "id" Decoder.string.option fun id t => { t with id },
    .required "type" Decoder.string fun type t => { t with type },
    .withDefault "name" Decoder.string.option fun name t => { t with name },
    .withDefault "description" Decoder.string.option fun description t => { t with description },
    .withDefault "schema" Decoder.json.option fun schema t => { t with schema }]
  closed := false
  initial := named ""

def decode : Decoder DetailType :=
  format.decode

end DetailType

inductive CatalogError where
  | unavailable (reason : String)
  | internal (reason : String)
deriving DecidableEq

def CatalogError.message : CatalogError → String
  | .unavailable reason => "api resource catalog unavailable: " ++ reason
  | .internal reason => "internal error: " ++ reason

structure Catalog where
  list : String → String → Except CatalogError (List DetailType)

end RichAuthorization
