import RichAuthorization.Service
import RichAuthorization.StaticRule

/-!
Registrations: the ways in which processors come into a registry, alone or many at a time.
-/

namespace RichAuthorization

inductive Registration where
  | single (p : Processor)
  | discovered (processors : List Processor)
  | configured (s : StaticRules)

namespace Registration

inductive Answer where
  | accepted (yes : Bool)
  | count (n : Nat)
deriving DecidableEq

end Registration

namespace Registry

def perform (r : Registry) : Registration → Traced Question (Registration.Answer × Registry)
  | .single p => do
    let (accepted, r) ← r.register p
    pure (.accepted accepted, r)
  | .discovered processors => do
    let (count, r) ← r.registerDiscovered processors
    pure (.count count, r)
  | .configured s => do
    let (count, r) ← r.registerStatic s
    pure (.count count, r)

def performAll (r : Registry) :
    List Registration → Traced Question (List Registration.Answer × Registry)
  | [] => pure ([], r)
  | registration :: rest => do
    let (answer, r) ← r.perform registration
    let (answers, r) ← r.performAll rest
    pure (answer :: answers, r)

end Registry

def Service.performAll (s : Service) (registrations : List Registration) :
    Traced Question (List Registration.Answer × Service) := do
  let (answers, registry) ← s.registry.performAll registrations
  pure (answers, { s with registry })

end RichAuthorization
