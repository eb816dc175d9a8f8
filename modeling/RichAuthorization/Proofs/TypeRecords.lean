import RichAuthorization.Catalog
import RichAuthorization.Proofs.RoundTrip

/-!
Records of declared types, written and read back.
-/

namespace RichAuthorization

open Json (Decoder Document Field Place RecordFormat Tree)

namespace Json

def nonNull? (v : Json) : Option Json :=
  match v.tree with
  | .null => none
  | _ => some v

theorem nonNull?_of_ne_null {v : Json} (h : v ≠ .null) : v.nonNull? = some v := by
  obtain ⟨t, canonical⟩ := v
  cases t with
  | null => exact absurd rfl h
  | _ => rfl

namespace Decoder

theorem option_json_ofTree {place : Place} (h : place.origin ≠ .text) (v : Json) :
    json.option place (Document.ofTree v.tree) = .ok v.nonNull? := by
  have hread := congrArg (Except.map some) (json_ofTree h v.tree)
  rw [ofTree_tree] at hread
  obtain ⟨t, canonical⟩ := v
  cases t with
  | null => rfl
  | _ => exact hread

end Decoder

def writtenMember {α : Type} (name : String) (write : α → Json) (value : Option α) :
    List (String × Tree) :=
  value.toList.map fun a => (name, (write a).tree)

theorem RecordFormat.readMembers_writtenMember {σ α : Type} {format : RecordFormat σ}
    {field : Field σ} {write : α → Json} {set : α → σ → σ} {place : Place} {name : String}
    {seen : List String} (hplace : place.origin ≠ .text) (hfield : format.field? name = some field)
    (h : field.ReadsBack write set) (hnew : name ∉ seen) (value : Option α)
    (rest : List (String × Tree)) (state : σ) :
    format.readMembers place (Document.ofMembers (writtenMember name write value ++ rest)) seen
        state =
      format.readMembers place (Document.ofMembers rest) (value.toList.map (fun _ => name) ++ seen)
        (value.elim state fun a => set a state) := by
  cases value with
  | none => rfl
  | some a => exact readMembers_of_readsBack hplace hfield h hnew a rest state

end Json

namespace DetailType

theorem tree_toJson (t : DetailType) :
    t.toJson.tree = .object (Json.writtenMember "description" .string t.description ++
      (Json.writtenMember "id" .string t.id ++ (Json.writtenMember "name" .string t.name ++
        (Json.writtenMember "schema" (fun v => v) t.schema ++
          [("type", (Json.string t.type).tree)])))) := by
  obtain ⟨id, type, name, description, schema⟩ := t
  cases id <;> cases name <;> cases description <;> cases schema <;>
    simp +decide only [toJson, textMember, Json.writtenMember, Json.record, Json.Object.ofList,
      Json.Object.insert, Json.Object.empty, Json.object, Named.insert, Option.toList_none,
      Option.toList_some, List.map_cons, List.map_nil, List.cons_append, List.nil_append,
      List.append_nil, List.foldl_cons, List.foldl_nil, if_true, if_false]

theorem decode_toJson {place : Place} (hplace : place.origin ≠ .text) (t : DetailType) :
    decode place (Document.ofTree t.toJson.tree) =
      .ok { t with schema := t.schema.bind Json.nonNull? } := by
  have hinner : { place with depth := place.depth + 1 }.origin ≠ .text := hplace
  have hstring : ∀ place : Place, place.origin ≠ .text → ∀ text,
      Decoder.string.option place (Document.ofTree (Json.string text).tree) = .ok (some text) :=
    fun _ _ _ => rfl
  have hjson : ∀ place : Place, place.origin ≠ .text → ∀ v,
      Decoder.json.option place (Document.ofTree (Json.tree v)) = .ok v.nonNull? :=
    fun _ h v => Decoder.option_json_ofTree h v
  rw [tree_toJson, Document.ofTree, decode, RecordFormat.decode, Json.Place.enter_bind hplace,
    RecordFormat.readMembers_writtenMember hinner rfl (Field.readsBack_withDefault_of_reads hstring)
      List.not_mem_nil t.description,
    RecordFormat.readMembers_writtenMember hinner rfl (Field.readsBack_withDefault_of_reads hstring)
      (by simp) t.id,
    RecordFormat.readMembers_writtenMember hinner rfl (Field.readsBack_withDefault_of_reads hstring)
      (by simp) t.name,
    RecordFormat.readMembers_writtenMember hinner rfl (Field.readsBack_withDefault_of_reads hjson)
      (by simp) t.schema,
    RecordFormat.readMembers_of_readsBack hinner rfl
      (Field.readsBack_required Decoder.readsBack_string) (by simp) t.type]
  -- What is left sets one field for each member that was there, on a record that names no type.
  cases t.description <;> cases t.id <;> cases t.name <;> cases t.schema <;> rfl

theorem ofJson_toJson (t : DetailType) :
    Decoder.ofJson decode t.toJson = .ok { t with schema := t.schema.bind Json.nonNull? } :=
  decode_toJson (by decide) t

theorem survives_writing_unless_null (t : DetailType) :
    (t.schema ≠ some .null → Decoder.ofJson decode t.toJson = .ok t) ∧
      (t.schema = some .null → Decoder.ofJson decode t.toJson = .ok { t with schema := none }) := by
  constructor
  · intro hschema
    have hkept : t.schema.bind Json.nonNull? = t.schema := by
      cases h : t.schema with
      | none => rfl
      | some v => exact Json.nonNull?_of_ne_null fun hnull => hschema (h.trans (congrArg some hnull))
    rw [ofJson_toJson, hkept]
  · intro hschema
    rw [ofJson_toJson, hschema]
    rfl

end DetailType

namespace Payments

def fullType : DetailType :=
  ⟨some "7", "payment", some "", some "Payments",
    some (.record [("type", .string "object"), ("default", .null)])⟩

def nullSchema : DetailType :=
  { DetailType.named "payment" with schema := some .null }

theorem null_schema_is_lost :
    nullSchema.toJson = .record [("type", .string "payment"), ("schema", .null)] ∧
      Decoder.ofJson DetailType.decode nullSchema.toJson = .ok (.named "payment") ∧
      ¬ ∀ t : DetailType, Decoder.ofJson DetailType.decode t.toJson = .ok t := by
  have hread : Decoder.ofJson DetailType.decode nullSchema.toJson = .ok (.named "payment") :=
    DetailType.ofJson_toJson nullSchema
  refine ⟨rfl, hread, fun h => ?_⟩
  have hsame := Except.ok.inj (hread.symm.trans (h nullSchema))
  exact Option.some_ne_none _ (congrArg DetailType.schema hsame).symm

theorem full_type_survives :
    Decoder.ofJson DetailType.decode fullType.toJson = .ok fullType ∧
      Decoder.ofJson DetailType.decode { fullType with schema := some .null }.toJson =
        .ok { fullType with schema := none } := by
  have hschema : fullType.schema ≠ some .null := fun h =>
    nomatch congrArg Json.tree (Option.some.inj h)
  exact ⟨(DetailType.survives_writing_unless_null fullType).1 hschema,
    (DetailType.survives_writing_unless_null { fullType with schema := some .null }).2 rfl⟩

end Payments

end RichAuthorization
