import RichAuthorization.RequestContext

/-!
The arguments of the command line.

Options are read from left to right, before and behind the name of the command; the first thing that
is wrong, or that asks for help, decides. An option that may stand in both places counts where it
stands last. An option that may be given once must not be repeated in one place.
-/

namespace RichAuthorization.Command

inductive Halt where
  | shown
  | usage
deriving DecidableEq

structure Valued where
  name : String
  letter : Option Char
  repeatable : Bool
  mayBeEmpty : Bool

structure Level where
  valued : List Valued
  flags : List String
  version : Bool

structure Given where
  values : List (String × String)
  flags : List String

namespace Given

def empty : Given := ⟨[], []⟩

def valuesOf (given : Given) (name : String) : List String :=
  (given.values.filter fun value => value.1 = name).map Prod.snd

def value? (given : Given) (name : String) : Option String :=
  (given.valuesOf name).getLast?

def addValue (given : Given) (option : Valued) (value : String) : Except Halt Given :=
  if !option.mayBeEmpty && value.isEmpty then .error .usage
  else if !option.repeatable && (given.value? option.name).isSome then .error .usage
  else .ok { given with values := given.values ++ [(option.name, value)] }

def addFlag (given : Given) (name : String) : Except Halt Given :=
  if given.flags.contains name then .error .usage
  else .ok { given with flags := given.flags ++ [name] }

end Given

inductive Argument where
  /-- Two dashes alone, behind which no option follows. -/
  | escape
  | long (name : String) (value : Option String)
  | short (letters : List Char)
  | word
deriving DecidableEq

def Argument.ofText (s : String) : Argument :=
  match s.toList with
  | ['-', '-'] => .escape
  | '-' :: '-' :: rest =>
    let name := String.ofList (rest.takeWhile (· != '='))
    match rest.dropWhile (· != '=') with
    | [] => .long name none
    | _ :: value => .long name (some (String.ofList value))
  | '-' :: c :: rest => .short (c :: rest)
  | _ => .word

inductive Step where
  | done (given : Given)
  | needsValue (option : Valued)

namespace Level

def findValued? (level : Level) (name : String) : Option Valued :=
  level.valued.find? fun option => option.name = name

def long (level : Level) (given : Given) (name : String) (value : Option String) :
    Except Halt Step :=
  match level.findValued? name, value with
  | some option, some value => (given.addValue option value).map .done
  | some option, none => .ok (.needsValue option)
  | none, some _ => .error .usage
  | none, none =>
    if name = "help" || (level.version && name = "version") then .error .shown
    else if level.flags.contains name then (given.addFlag name).map .done
    else .error .usage

def short (level : Level) (given : Given) : List Char → Except Halt Step
  | [] => .ok (.done given)
  | c :: rest =>
    if c = 'h' || (level.version && c = 'V') then .error .shown
    else
      match level.valued.find? fun option => option.letter = some c with
      | none => .error .usage
      | some option =>
        match rest with
        | [] => .ok (.needsValue option)
        | '=' :: value => (given.addValue option (String.ofList value)).map .done
        | value => (given.addValue option (String.ofList value)).map .done

def read (level : Level) : List String → Given → Except Halt (Given × List String)
  | [], given => .ok (given, [])
  | arg :: rest, given => do
    let step ← match Argument.ofText arg with
      | .long name value => (level.long given name value).map some
      | .short letters => (level.short given letters).map some
      | _ => pure none
    match step with
    | none => pure (given, arg :: rest)
    | some (.done given) => level.read rest given
    | some (.needsValue option) =>
      match rest with
      | [] => .error .usage
      | value :: rest =>
        if Argument.ofText value = .word then do
          let given ← given.addValue option value
          level.read rest given
        else .error .usage

end Level

def Valued.once (name : String) : Valued := ⟨name, none, false, true⟩

def sharedOptions : List Valued :=
  [⟨"config", some 'c', false, false⟩, .once "tenant", .once "organization"]

inductive Request where
  | validate (requested granted : String)
  | introspect (token : String) (tokenType requested : Option String)
  | processors
  | publicClient (clientId : Option String) (grantTypes : List String) (direct : Bool)
deriving DecidableEq

structure Form where
  name : String
  valued : List Valued
  flags : List String
  request : Given → Option Request

def forms : List Form := [
  { name := "validate"
    valued := [.once "requested", .once "granted"]
    flags := []
    request := fun given => do
      pure (.validate (← given.value? "requested") (← given.value? "granted")) },
  { name := "introspect"
    valued := [.once "token", .once "token-type", .once "requested"]
    flags := []
    request := fun given => do
      pure (.introspect (← given.value? "token") (given.value? "token-type")
        (given.value? "requested")) },
  { name := "processors"
    valued := []
    flags := []
    request := fun _ => some .processors },
  { name := "public-client"
    valued := [.once "client-id", ⟨"grant-type", none, true, true⟩]
    flags := ["direct"]
    request := fun given =>
      some (.publicClient (given.value? "client-id") (given.valuesOf "grant-type")
        (given.flags.contains "direct")) }]

structure Invocation where
  config : Option String
  tenant : String
  organization : Option String
  request : Request
deriving DecidableEq

def Invocation.context (i : Invocation) : RequestContext :=
  let ctx := RequestContext.default.withTenant i.tenant
  match i.organization with
  | some organization => ctx.withOrganization organization
  | none => ctx

def readHelp : List String → Halt
  | [] => .shown
  | [name] => if name = "help" || forms.any (·.name = name) then .shown else .usage
  | _ => .usage

def readForm (before : Given) (form : Form) (args : List String) : Except Halt Invocation := do
  let level : Level := ⟨sharedOptions ++ form.valued, form.flags, false⟩
  let (given, rest) ← level.read args .empty
  if rest = [] || rest = ["--"] then
    match form.request given with
    | none => .error .usage
    | some request =>
      let shared (name : String) : Option String := (given.value? name).or (before.value? name)
      pure {
        config := shared "config"
        tenant := (shared "tenant").getD RequestContext.defaultTenant
        organization := shared "organization"
        request }
  else .error .usage

def readArguments (args : List String) : Except Halt Invocation := do
  let (before, rest) ← Level.read ⟨sharedOptions, [], true⟩ args .empty
  match rest with
  | [] => .error .usage
  | name :: rest =>
    if name = "help" then .error (readHelp rest)
    else
      match forms.find? fun form => form.name = name with
      | none => .error .usage
      | some form => readForm before form rest

end RichAuthorization.Command
