import RichAuthorization.Token

/-!
Why a detail cannot be validated or a token not be described, as the service knows it and as the
introspection endpoint is told.
-/

namespace RichAuthorization

inductive ServiceError where
  | processorFailed (type processor reason : String)
  | tokenLookup (reason : String)
  | internal (reason : String)
deriving DecidableEq

def ServiceError.message : ServiceError → String
  | .processorFailed type processor reason =>
    "processor '" ++ processor ++ "' failed on type '" ++ type ++ "': " ++ reason
  | .tokenLookup reason => "token lookup failed: " ++ reason
  | .internal reason => "internal error: " ++ reason

def ServiceError.ofTokenError (e : TokenError) : ServiceError :=
  .tokenLookup e.message

inductive IntrospectionError where
  | validationFailed (reason : String)
  | tokenLookup (reason : String)
  | internal (reason : String)
deriving DecidableEq

def IntrospectionError.message : IntrospectionError → String
  | .validationFailed reason => "authorization details validation failed: " ++ reason
  | .tokenLookup reason => "token lookup failed: " ++ reason
  | .internal reason => "internal error: " ++ reason

def ServiceError.toIntrospectionError : ServiceError → IntrospectionError
  | .processorFailed type processor reason =>
    .validationFailed (ServiceError.processorFailed type processor reason).message
  | .tokenLookup reason => .tokenLookup reason
  | .internal reason => .internal reason

end RichAuthorization
