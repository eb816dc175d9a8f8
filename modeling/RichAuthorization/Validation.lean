import RichAuthorization.Registry
import RichAuthorization.ServiceError

/-!
Validation: which requested details are covered by the granted ones.
-/

namespace RichAuthorization

inductive Rejection where
  | unsupportedType
  | notGranted
deriving DecidableEq

def Rejection.name : Rejection → String
  | .unsupportedType => "unsupported_type"
  | .notGranted => "not_granted"

inductive Verdict where
  | validated
  | rejected (reason : Rejection)
deriving DecidableEq

def Verdict.rejection? : Verdict → Option Rejection
  | .validated => none
  | .rejected reason => some reason

structure Outcome where
  verdicts : List (Detail × Verdict)

namespace Outcome

def empty : Outcome := ⟨[]⟩

def validated (o : Outcome) : DetailSet :=
  .ofList ((o.verdicts.filter fun entry => entry.2 = .validated).map Prod.fst)

def rejected (o : Outcome) : List (Detail × Rejection) :=
  o.verdicts.filterMap fun entry => entry.2.rejection?.map fun reason => (entry.1, reason)

def isFullyValidated (o : Outcome) : Bool :=
  o.rejected.isEmpty

def toJson (o : Outcome) : Json :=
  .record [
    ("validated", o.validated.toJson),
    ("rejected", .array (o.rejected.map fun entry => .record [
      ("detail", entry.1.toJson), ("reason", .string entry.2.name)]))]

end Outcome

structure Validator where
  registry : Registry
  catalog : Catalog
  catalogRequired : Bool

-- The processor of a type, with the granted details of that type.
structure Matcher where
  processor : Processor
  reference : DetailSet

def Matcher.judge (m : Matcher) (candidate : Detail) :
    Traced Question (Except ServiceError Verdict) := do
  match ← Traced.ask (.processor m.processor candidate m.reference)
      (m.processor.judge candidate m.reference) with
  | .ok true => pure (.ok .validated)
  | .ok false =>
    Traced.log .debug "Requested authorization detail is not covered by the reference"
    pure (.ok (.rejected .notGranted))
  | .error e => pure (.error (.processorFailed candidate.type m.processor.name e.message))

namespace Validator

-- `none` leaves all types allowed.
def allowedTypes (v : Validator) (ctx : RequestContext) :
    Traced Question (Option (List String)) :=
  if v.catalogRequired then some <$> v.registry.supportedTypes v.catalog ctx else pure none

def allows (allowed : Option (List String)) (type : String) : Bool :=
  allowed.all fun types => types.contains type

def resolve (v : Validator) (allowed : Option (List String)) (granted : DetailSet)
    (matchers : NameMap Matcher) (type : String) : Traced Question (NameMap Matcher) :=
  match v.registry.find? type with
  | none => do
    Traced.log .debug "No processor registered for authorization details type"
    pure matchers
  | some p =>
    if allows allowed type then
      pure (matchers.insert type ⟨p, granted.ofType type⟩)
    else do
      Traced.log .debug "Authorization details type is not registered for the tenant"
      pure matchers

def resolveAll (v : Validator) (allowed : Option (List String)) (granted : DetailSet)
    (matchers : NameMap Matcher) : List String → Traced Question (NameMap Matcher)
  | [] => pure matchers
  | type :: rest => do
    let matchers ← v.resolve allowed granted matchers type
    v.resolveAll allowed granted matchers rest

def judge (matcher? : String → Option Matcher) (candidate : Detail) :
    Traced Question (Except ServiceError Verdict) :=
  match matcher? candidate.type with
  | none => pure (.ok (.rejected .unsupportedType))
  | some m => m.judge candidate

def judgeAll (matcher? : String → Option Matcher) :
    List Detail → Traced Question (Except ServiceError (List (Detail × Verdict)))
  | [] => pure (.ok [])
  | candidate :: rest => do
    match ← judge matcher? candidate with
    | .error e => pure (.error e)
    | .ok verdict =>
      match ← judgeAll matcher? rest with
      | .error e => pure (.error e)
      | .ok verdicts => pure (.ok ((candidate, verdict) :: verdicts))

def validate (v : Validator) (ctx : RequestContext) (requested granted : DetailSet) :
    Traced Question (Except ServiceError Outcome) := do
  if requested.isEmpty then
    pure (.ok .empty)
  else
    let allowed ← v.allowedTypes ctx
    let matchers ← v.resolveAll allowed granted .empty requested.types
    match ← judgeAll matchers.find? requested.toList with
    | .error e => pure (.error e)
    | .ok verdicts =>
      Traced.log .debug "Authorization details validated"
      pure (.ok ⟨verdicts⟩)

def effectiveRequest (ctx : TokenContext) : DetailSet :=
  if ctx.query.requested.isEmpty then ctx.granted else ctx.query.requested

def validatedForToken (v : Validator) (ctx : RequestContext) (token : TokenContext) :
    Traced Question (Except ServiceError DetailSet) := do
  match ← v.validate ctx (effectiveRequest token) token.granted with
  | .error e => pure (.error e)
  | .ok outcome => pure (.ok outcome.validated)

end Validator

end RichAuthorization
