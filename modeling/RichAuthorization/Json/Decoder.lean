import RichAuthorization.Json.Basic
import RichAuthorization.Json.Document

/-!
Typed readers of documents.

A reader walks a document and stops at the first thing that is wrong, be it a fault of the text or a
value of the wrong kind. A record is written as an object of its fields or as an array of them in
their order. Values that were read before (`Decoder.ofJson`) and configuration (`Origin.settings`)
go through the same readers; they differ from a text in the few points that `Origin` lists.
-/

namespace RichAuthorization.Json

inductive Found where
  | null
  | boolean (value : Bool)
  | integer (value : Int)
  | double (value : Double)
  | string (value : String)
  | sequence
  | map
deriving DecidableEq

def Found.text : Found → String
  | .null => "null"
  | .boolean b => "boolean `" ++ (if b then "true" else "false") ++ "`"
  | .integer i => "integer `" ++ toString i ++ "`"
  | .double d => "floating point `" ++ d.text ++ "`"
  | .string s => "string \"" ++ s ++ "\""
  | .sequence => "sequence"
  | .map => "map"

inductive Expected where
  | string
  | boolean
  | sequence
  | map
  | unit
  | signed (bits : Nat)
  | record (name : String)
  | variant
  | variantName
deriving DecidableEq

def Expected.text : Expected → String
  | .string => "a string"
  | .boolean => "a boolean"
  | .sequence => "a sequence"
  | .map => "a map"
  | .unit => "unit"
  | .signed bits => "i" ++ toString bits
  | .record name => "struct " ++ name
  | .variant => "string or map"
  | .variantName => "variant identifier"

inductive Mismatch where
  | missingField (name : String)
  | duplicateField (name : String)
  | unknownField (name : String) (known : List String)
  | unknownVariant (name : String) (known : List String)
  | wrongType (found : Found) (expected : Expected)
  | outOfRange (value : Int) (expected : Expected)
  | severalVariants
  | tooShort (length : Nat) (record : String) (fields : Nat)
  | tooLong (length : Nat)
  | refused (reason : String)
deriving DecidableEq

def backquoted (name : String) : String :=
  "`" ++ name ++ "`"

def alternatives : List String → String
  | [] => "there are none"
  | [a] => "expected " ++ backquoted a
  | [a, b] => "expected " ++ backquoted a ++ " or " ++ backquoted b
  | names => "expected one of " ++ ", ".intercalate (names.map backquoted)

def Mismatch.message : Mismatch → String
  | .missingField name => "missing field " ++ backquoted name
  | .duplicateField name => "duplicate field " ++ backquoted name
  | .unknownField name known => "unknown field " ++ backquoted name ++ ", " ++ alternatives known
  | .unknownVariant name known =>
    "unknown variant " ++ backquoted name ++ ", " ++ alternatives known
  | .wrongType found expected => "invalid type: " ++ found.text ++ ", expected " ++ expected.text
  | .outOfRange value expected =>
    "invalid value: " ++ (Found.integer value).text ++ ", expected " ++ expected.text
  | .severalVariants => "invalid value: map, expected map with a single key"
  | .tooShort length record fields =>
    "invalid length " ++ toString length ++ ", expected struct " ++ record ++ " with "
      ++ toString fields ++ (if fields = 1 then " element" else " elements")
  | .tooLong length =>
    "invalid length " ++ toString length ++ ", expected fewer elements in array"
  | .refused reason => reason

inductive DecodeError where
  | text (fault : Fault)
  | data (mismatch : Mismatch)
deriving DecidableEq

inductive Origin where
  /-- A text. Arrays and objects nest 127 levels deep, and surplus items are a fault of the text. -/
  | text
  | value
  /-- Merged configuration: surplus items are ignored, and so are further members of a variant. -/
  | settings
deriving DecidableEq

structure Place where
  origin : Origin
  depth : Nat

def maxDepth : Nat := 127

def Place.enter (place : Place) : Except DecodeError Place :=
  if place.origin = .text ∧ maxDepth ≤ place.depth then .error (.text .malformed)
  else .ok { place with depth := place.depth + 1 }

abbrev Decoder (α : Type) := Place → Document → Except DecodeError α

namespace Decoder

def fault {α : Type} (f : Fault) : Except DecodeError α :=
  .error (.text f)

def mismatch {α : Type} (m : Mismatch) : Except DecodeError α :=
  .error (.data m)

def scanned {α : Type} : Except Fault α → Except DecodeError α
  | .ok a => .ok a
  | .error f => fault f

def finish : Option Fault → Except DecodeError Unit
  | none => .ok ()
  | some f => fault f

def found : Document → Except DecodeError Found
  | .null => .ok .null
  | .bool b => .ok (.boolean b)
  | .number read _ =>
    match read with
    | .ok (.int i) => .ok (.integer i)
    | .ok (.double d) => .ok (.double d)
    | .error f => fault f
  | .string read _ =>
    match read with
    | .ok s => .ok (.string s)
    | .error f => fault f
  | .array _ _ => .ok .sequence
  | .object _ _ => .ok .map
  | .broken f => fault f
  | .absent => fault .truncated

def wrongType {α : Type} (expected : Expected) (d : Document) : Except DecodeError α :=
  match found d with
  | .ok kind => mismatch (.wrongType kind expected)
  | .error e => .error e

def memberName : Document → Except DecodeError String
  | .string read _ => scanned read
  | .absent => fault .truncated
  | _ => fault .malformed

def string : Decoder String
  | _, .string read _ => scanned read
  | _, d => wrongType .string d

def bool : Decoder Bool
  | _, .bool b => .ok b
  | _, d => wrongType .boolean d

def signed (bits : Nat) : Decoder Int
  | _, .number (.ok (.int i)) _ =>
    if -Int.pow 2 (bits - 1) ≤ i && i < Int.pow 2 (bits - 1) then .ok i
    else mismatch (.outOfRange i (.signed bits))
  | _, d => wrongType (.signed bits) d

def int32 : Decoder Int32 :=
  fun place d => (signed 32 place d).map Int32.ofInt

def int64 : Decoder Int64 :=
  fun place d => (signed 64 place d).map Int64.ofInt

def unit : Decoder Unit
  | _, .null => .ok ()
  | _, d => wrongType .unit d

def option {α : Type} (inner : Decoder α) : Decoder (Option α)
  | _, .null => .ok none
  | place, d => (inner place d).map some

def list {α : Type} (item : Decoder α) : Decoder (List α)
  | place, .array items stop => do
    let inner ← place.enter
    let result ← items.mapM (item inner)
    finish stop
    pure result
  | _, d => wrongType .sequence d

def nameMap {α : Type} (item : Decoder α) : Decoder (NameMap α)
  | place, .object members stop => do
    let inner ← place.enter
    let result ← members.foldlM (fun map member => do
      let name ← memberName member.1
      let value ← item inner member.2
      pure (map.insert name value)) NameMap.empty
    finish stop
    pure result
  | _, d => wrongType .map d

mutual

def tree : Document → Place → Except DecodeError Tree
  | .null, _ => .ok .null
  | .bool b, _ => .ok (.bool b)
  | .number read _, _ => (scanned read).map .number
  | .string read _, _ => (scanned read).map .string
  | .array items stop, place => do
    let inner ← place.enter
    let result ← treeItems items inner
    finish stop
    pure (.array result)
  | .object members stop, place => do
    let inner ← place.enter
    let result ← treeMembers members inner
    finish stop
    pure (.object result)
  | .broken f, _ => fault f
  | .absent, _ => fault .truncated

def treeItems : List Document → Place → Except DecodeError (List Tree)
  | [], _ => .ok []
  | d :: rest, place => do
    let t ← tree d place
    let ts ← treeItems rest place
    pure (t :: ts)

def treeMembers : List (Document × Document) → Place → Except DecodeError (List (String × Tree))
  | [], _ => .ok []
  | (name, d) :: rest, place => do
    let name ← memberName name
    let t ← tree d place
    let ts ← treeMembers rest place
    pure ((name, t) :: ts)

end

def json : Decoder Json :=
  fun place d => (tree d place).map Json.ofTree

def variantNamed {α : Type} (variants : List (String × α)) (name : String) :
    Except DecodeError α :=
  match variants.find? fun variant => variant.1 = name with
  | some variant => .ok variant.2
  | none => mismatch (.unknownVariant name (variants.map Prod.fst))

def variantMember {α : Type} (variants : List (String × α)) (place : Place)
    (member : Document × Document) : Except DecodeError α := do
  let name ← match member.1 with
    | .string read _ => scanned read
    | d => wrongType .variantName d
  let a ← variantNamed variants name
  unit place member.2
  pure a

def variant {α : Type} (variants : List (String × α)) : Decoder α
  | _, .string read _ => do variantNamed variants (← scanned read)
  | place, .object members stop => do
    let inner ← place.enter
    match place.origin, members with
    | .text, [] => fault (stop.getD .malformed)
    | .text, member :: rest => do
      let a ← variantMember variants inner member
      if rest.isEmpty then finish stop else fault .malformed
      pure a
    | .value, [member] => variantMember variants inner member
    | .settings, member :: _ => variantMember variants inner member
    | _, _ => mismatch .severalVariants
  | place, d =>
    match place.origin, d with
    | .text, .absent => fault .truncated
    | .text, _ => fault .malformed
    | _, d => wrongType .variant d

end Decoder

structure Field (σ : Type) where
  name : String
  read : Decoder (σ → σ)
  /-- An object may leave the field out. -/
  optional : Bool
  /-- An array may end before the field. -/
  defaulted : Bool

namespace Field

variable {σ α : Type}

def required (name : String) (decoder : Decoder α) (set : α → σ → σ) : Field σ :=
  ⟨name, fun place d => (decoder place d).map set, false, false⟩

def withDefault (name : String) (decoder : Decoder α) (set : α → σ → σ) : Field σ :=
  ⟨name, fun place d => (decoder place d).map set, true, true⟩

def nullable (name : String) (decoder : Decoder α) (set : Option α → σ → σ) : Field σ :=
  ⟨name, fun place d => (decoder.option place d).map set, true, false⟩

end Field

structure RecordFormat (σ : Type) where
  name : String
  fields : List (Field σ)
  closed : Bool
  initial : σ

namespace RecordFormat

variable {σ : Type}

def fieldNames (format : RecordFormat σ) : List String :=
  format.fields.map Field.name

def readMembers (format : RecordFormat σ) (place : Place) :
    List (Document × Document) → List String → σ → Except DecodeError (List String × σ)
  | [], seen, state => .ok (seen, state)
  | (key, d) :: rest, seen, state => do
    let name ← Decoder.memberName key
    match format.fields.find? fun field => field.name = name with
    | some field =>
      if name ∈ seen then Decoder.mismatch (.duplicateField name)
      else
        let set ← field.read place d
        format.readMembers place rest (name :: seen) (set state)
    | none =>
      if format.closed then Decoder.mismatch (.unknownField name format.fieldNames)
      else
        Decoder.finish d.skipFault?
        format.readMembers place rest seen state

def firstMissing? (format : RecordFormat σ) (seen : List String) : Option String :=
  (format.fields.find? fun field => !field.optional && !seen.contains field.name).map Field.name

def readItems (format : RecordFormat σ) (place : Place) (stop : Option Fault) :
    List (Field σ) → Nat → List Document → σ → Except DecodeError (List Document × σ)
  | [], _, items, state => .ok (items, state)
  | field :: fields, index, d :: items, state => do
    let set ← field.read place d
    format.readItems place stop fields (index + 1) items (set state)
  | field :: fields, index, [], state => do
    Decoder.finish stop
    if field.defaulted then format.readItems place stop fields (index + 1) [] state
    else Decoder.mismatch (.tooShort index format.name format.fields.length)

def decode (format : RecordFormat σ) : Decoder σ
  | place, .object members stop => do
    let inner ← place.enter
    let (seen, result) ← format.readMembers inner members [] format.initial
    Decoder.finish stop
    match format.firstMissing? seen with
    | some name => Decoder.mismatch (.missingField name)
    | none => pure result
  | place, .array items stop => do
    let inner ← place.enter
    let (surplus, result) ← format.readItems inner stop format.fields 0 items format.initial
    if surplus.isEmpty then Decoder.finish stop
    else
      match place.origin with
      | .text => Decoder.fault .malformed
      | .value => Decoder.mismatch (.tooLong items.length)
      | .settings => pure ()
    pure result
  | _, d => Decoder.wrongType (.record format.name) d

end RecordFormat

namespace Decoder

def ofText {α : Type} (decoder : Decoder α) (s : String) : Except DecodeError α := do
  let (d, behind) := Document.ofText s
  let a ← decoder ⟨.text, 0⟩ d
  finish behind
  pure a

def ofJson {α : Type} (decoder : Decoder α) (v : Json) : Except DecodeError α :=
  decoder ⟨.value, 0⟩ (Document.ofTree v.tree)

def ofSettings {α : Type} (decoder : Decoder α) (v : Json) : Except DecodeError α :=
  decoder ⟨.settings, 0⟩ (Document.ofTree v.tree)

end Decoder

end RichAuthorization.Json
