import RichAuthorization.Registry

/-!
Rules for types of details, and the processors that follow from them.

A rule compares only the types, or the fields of a requested detail with those of each granted one.
Where nothing of the type was granted, the rule itself has the answer.
-/

namespace RichAuthorization

open Json (Decoder Field RecordFormat)

inductive Matching where
  | typeOnly
  | structural
deriving DecidableEq

namespace Matching

def name : Matching → String
  | .typeOnly => "type_only"
  | .structural => "structural"

def decode : Decoder Matching :=
  Decoder.variant ([.typeOnly, .structural].map fun m => (m.name, m))

end Matching

structure TypeRule where
  type : String
  matching : Matching
  /-- The answer when nothing of the type was granted. -/
  subsetOfEmpty : Bool
deriving DecidableEq

def Detail.checkCommonFields (d : Detail) : Except ProcessorError Unit :=
  match d.misfit? with
  | none => .ok ()
  | some name => .error (.malformed
      ("'" ++ name ++ "' of '" ++ d.type ++ "' must be an array of strings"))

namespace TypeRule

def format : RecordFormat TypeRule where
  name := "TypeRuleConfig"
  fields := [
    .required "type" Decoder.string fun type rule => { rule with type },
    .withDefault "matching" Matching.decode fun matching rule => { rule with matching },
    .withDefault "subset_of_empty" Decoder.bool
      fun subsetOfEmpty rule => { rule with subsetOfEmpty }]
  closed := true
  initial := ⟨"", .typeOnly, false⟩

def decode : Decoder TypeRule :=
  format.decode

def toJson (rule : TypeRule) : Json :=
  .record [
    ("type", .string rule.type),
    ("matching", .string rule.matching.name),
    ("subset_of_empty", .bool rule.subsetOfEmpty)]

def strict (type : String) (matching : Matching) : TypeRule :=
  ⟨type, matching, false⟩

def judge (rule : TypeRule) (candidate : Detail) (granted : DetailSet) :
    Except ProcessorError Bool :=
  if granted.isEmpty then .ok rule.subsetOfEmpty
  else
    match rule.matching with
    | .typeOnly => .ok (granted.toList.all fun g => g.type = candidate.type)
    | .structural => do
      candidate.checkCommonFields
      granted.toList.forM Detail.checkCommonFields
      pure (granted.toList.any fun g => g.covers candidate)

def processor (rule : TypeRule) : Processor where
  type := rule.type
  name := "StaticProcessor(" ++ rule.matching.name ++ ")"
  judge := rule.judge

end TypeRule

structure StaticRules where
  rules : List TypeRule
deriving DecidableEq

namespace StaticRules

def pluginName : String := "static-rar-plugin"

def empty : StaticRules := ⟨[]⟩

instance : Inhabited StaticRules := ⟨empty⟩

def format : RecordFormat StaticRules where
  name := "StaticRarPluginConfig"
  fields := [
    .withDefault "types" TypeRule.decode.list fun rules s => { s with rules }]
  closed := true
  initial := empty

def decode : Decoder StaticRules :=
  format.decode

def toJson (s : StaticRules) : Json :=
  .record [("types", .array (s.rules.map TypeRule.toJson))]

end StaticRules

namespace Registry

def registerRules (r : Registry) : List TypeRule → Traced Question (Nat × Registry)
  | [] => pure (0, r)
  | rule :: rest => do
    let (accepted, r) ← r.register rule.processor
    if accepted then Traced.log .info "Registered static authorization details processor"
    else Traced.log .warn "Skipping static processor rule with a blank type"
    let (count, r) ← r.registerRules rest
    pure ((if accepted then count + 1 else count), r)

def registerStatic (r : Registry) (s : StaticRules) : Traced Question (Nat × Registry) := do
  Traced.log .info "Initializing static_rar_plugin"
  let result ← r.registerRules s.rules
  Traced.log .info "Static rar plugin initialized"
  pure result

end Registry

end RichAuthorization
