import RichAuthorization.Coverage
import RichAuthorization.Catalog

/-!
Processors: each decides for one type of details whether a requested detail is covered by the
granted ones.
-/

namespace RichAuthorization

inductive ProcessorError where
  | malformed (reason : String)
  | internal (reason : String)
deriving DecidableEq

def ProcessorError.message : ProcessorError → String
  | .malformed reason => "malformed authorization detail: " ++ reason
  | .internal reason => "processor failure: " ++ reason

structure Processor where
  type : String
  name : String
  judge : Detail → DetailSet → Except ProcessorError Bool

inductive Question where
  | catalog (tenant filter : String)
  | accessToken (identifier : String) (includeExpired : Bool)
  | refreshToken (identifier : String)
  | processor (asked : Processor) (candidate : Detail) (reference : DetailSet)

end RichAuthorization
