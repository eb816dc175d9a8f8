import RichAuthorization.Json.Decoder
import RichAuthorization.Text.Blank

/-!
Authorization details: typed claims of what a client may do.
-/

namespace RichAuthorization

open Json (Decoder DecodeError Document Place)

structure Detail where
  type : String
  fields : Json.Object
  named : Text.isBlank type = false
  untyped : fields.find? "type" = none

inductive InvalidDetail where
  | blankType
deriving DecidableEq

def InvalidDetail.line (reason : String) : String :=
  "invalid authorization detail: " ++ reason

def InvalidDetail.message : InvalidDetail → String
  | .blankType => line "type must not be blank"

namespace Detail

def typeName : String := "type"

def identifierName : String := "identifier"

def stringArrayNames : List String := ["locations", "actions", "datatypes", "privileges"]

instance : BEq Detail := ⟨fun a b => a.type == b.type && a.fields == b.fields⟩

theorem beq_iff {a b : Detail} :
    (a == b) = true ↔ a.type = b.type ∧ (a.fields == b.fields) = true := by
  change (a.type == b.type && a.fields == b.fields) = true ↔ _
  simp

instance : EquivBEq Detail where
  rfl := beq_iff.mpr ⟨rfl, BEq.rfl⟩
  symm h := beq_iff.mpr ⟨(beq_iff.mp h).1.symm, BEq.symm (beq_iff.mp h).2⟩
  trans hab hbc := beq_iff.mpr
    ⟨(beq_iff.mp hab).1.trans (beq_iff.mp hbc).1,
      PartialEquivBEq.trans (beq_iff.mp hab).2 (beq_iff.mp hbc).2⟩

def ofFields (type : String) (fields : Json.Object) : Except InvalidDetail Detail :=
  if named : Text.isBlank type = false then
    .ok ⟨type, fields.erase typeName, named, fields.find?_erase_self typeName⟩
  else .error .blankType

def ofType (type : String) : Except InvalidDetail Detail :=
  ofFields type .empty

def field? (d : Detail) (name : String) : Option Json :=
  d.fields.find? name

def set (d : Detail) (name : String) (value : Json) : Detail :=
  if h : name = typeName then d
  else { d with
    fields := d.fields.insert name value
    untyped := (Json.Object.find?_insert_of_ne h d.fields value).trans d.untyped }

@[simp]
theorem set_type (d : Detail) (name : String) (value : Json) :
    (d.set name value).type = d.type := by
  simp only [set]
  split <;> rfl

theorem field?_set_self (d : Detail) {name : String} (h : name ≠ typeName) (value : Json) :
    (d.set name value).field? name = some value := by
  simp [set, field?, h]

theorem field?_set_of_ne (d : Detail) {name other : String} (h : name ≠ other) (value : Json) :
    (d.set name value).field? other = d.field? other := by
  simp only [set]
  split
  · rfl
  · exact Json.Object.find?_insert_of_ne h d.fields value

theorem field?_type (d : Detail) : d.field? typeName = none := d.untyped

def exchange (d : Detail) (name : String) (value : Json) : Option Json × Detail :=
  if name = typeName then (none, d) else (d.field? name, d.set name value)

theorem exchange_eq (d : Detail) (name : String) (value : Json) :
    d.exchange name value = (d.field? name, d.set name value) := by
  simp only [exchange]
  split
  · next h => simp [h, field?_type, set]
  · rfl

def strings? (d : Detail) (name : String) : Option (List String) :=
  (d.field? name).bind Json.strings?

def identifier? (d : Detail) : Option String :=
  (d.field? identifierName).bind Json.string?

def toJson (d : Detail) : Json :=
  .object (d.fields.insert typeName (.string d.type))

/-- Reads the members: the type, which must not occur twice, and the fields, of which the last of
one name wins. -/
def readMembers (place : Place) : List (Document × Document) → Option String → Json.Object →
    Except DecodeError (Option String × Json.Object)
  | [], type, fields => .ok (type, fields)
  | (key, value) :: rest, type, fields => do
    let name ← Decoder.memberName key
    if name = typeName then
      if type.isSome then Decoder.mismatch (.duplicateField name)
      else
        let found ← Decoder.string place value
        readMembers place rest (some found) fields
    else
      let found ← Decoder.json place value
      readMembers place rest type (fields.insert name found)

def decode : Decoder Detail
  | place, .object members stop => do
    let inner ← place.enter
    let (type, fields) ← readMembers inner members none .empty
    Decoder.finish stop
    match type with
    | none => Decoder.mismatch (.missingField typeName)
    | some type =>
      match ofFields type fields with
      | .ok d => pure d
      | .error refusal => Decoder.mismatch (.refused refusal.message)
  | _, d => Decoder.wrongType (.record "RawAuthorizationDetail") d

end Detail

end RichAuthorization
