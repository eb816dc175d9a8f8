import RichAuthorization.Command.Arguments
import RichAuthorization.Introspection
import RichAuthorization.Settings.Configured
import RichAuthorization.Settings.Load

/-!
The tool: what it prints for its arguments in its surroundings.
-/

namespace RichAuthorization.Command

open Settings (Surroundings)

inductive Report where
  | printed (output : Json)
  | failed (message : String)
  | halted (halt : Halt)

def Report.status : Report → Nat
  | .printed _ => 0
  | .failed _ => 1
  | .halted .shown => 0
  | .halted .usage => 2

def Report.ofExcept : Except String Json → Report
  | .ok output => .printed output
  | .error message => .failed message

def configuredService (settings : Settings) : Except String Service :=
  match (settings.startService .empty []).value with
  | .ok (_, service) => .ok service
  | .error e => .error e.message

def readDetails (option text : String) : Except String DetailSet :=
  match DetailSet.decode.ofText text with
  | .ok details => .ok details
  | .error _ => .error ("invalid --" ++ option)

def validate (settings : Settings) (ctx : RequestContext) (requested granted : String) :
    Except String Json := do
  let service ← configuredService settings
  let requested ← readDetails "requested" requested
  let granted ← readDetails "granted" granted
  match (service.validator.validate ctx requested granted).value with
  | .ok outcome => pure outcome.toJson
  | .error e => .error e.message

def introspect (settings : Settings) (ctx : RequestContext) (token : String)
    (tokenType requested : Option String) : Except String Json := do
  let service ← configuredService settings
  let requested ← match requested with
    | some text => readDetails "requested" text
    | none => pure .empty
  let response := { IntrospectionResponse.blank with active := true, tokenType }
  match (service.introspect ctx ⟨token, requested⟩ response).value with
  | .ok members => pure (.object members)
  | .error e => .error e.message

def clientRequest (clientId : Option String) (grantTypes : List String) (direct : Bool) :
    Client.Request where
  body :=
    grantTypes.map (fun grantType => (Client.Request.grantTypeName, grantType))
      ++ clientId.toList.map fun id => (Client.Request.clientIdName, id)
  query := if direct then [(Client.Request.responseModeName, Client.Request.directMode)] else []

def publicClient (settings : Settings) (ctx : RequestContext) (clientId : Option String)
    (grantTypes : List String) (direct : Bool) : Json :=
  let gate := settings.startGate.value
  let (admitted, known) :=
    (gate.admits (clientRequest clientId grantTypes direct) .unknown ctx).value
  .record [
    ("authenticator", .string Client.Gate.name),
    ("admitted", .bool admitted),
    ("client_id", .option .string known.clientId)]

def answer (settings : Settings) (ctx : RequestContext) : Request → Except String Json
  | .validate requested granted => validate settings ctx requested granted
  | .introspect token tokenType requested => introspect settings ctx token tokenType requested
  | .processors => (configuredService settings).map fun service => .strings service.registry.types
  | .publicClient clientId grantTypes direct =>
    .ok (publicClient settings ctx clientId grantTypes direct)

def run (surroundings : Surroundings) (args : List String) : Report :=
  match readArguments args with
  | .error halt => .halted halt
  | .ok invocation =>
    match Settings.load surroundings invocation.config with
    | .error e => .failed e.message
    | .ok settings => .ofExcept (answer settings invocation.context invocation.request)

end RichAuthorization.Command
