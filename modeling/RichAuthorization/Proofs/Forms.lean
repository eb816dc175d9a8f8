import Mathlib.Tactic.MkIffOfInductiveProp
import RichAuthorization.Proofs.Acceptance
import RichAuthorization.Proofs.Members
import RichAuthorization.Proofs.TypeRecords
import RichAuthorization.Settings.Basic

/-!
The objects that records of settings are written as.
-/

namespace RichAuthorization

open Json (Decoder Document Origin Place Slot)

namespace Json.Decoder

variable {α : Type} {decoder : Decoder α} {write : α → Json} {place : Place}

theorem signed_eq_ok_iff {bits : Nat} {t : Tree} {i : Int} :
    signed bits place (Document.ofTree t) = .ok i ↔
      t = .number (.int i) ∧ -Int.pow 2 (bits - 1) ≤ i ∧ i < Int.pow 2 (bits - 1) := by
  cases t with
  | number n =>
      cases n with
      | int j =>
          simp only [Document.ofTree, signed, Bool.and_eq_true, decide_eq_true_eq,
            Tree.number.injEq, Number.int.injEq]
          by_cases hrange : -Int.pow 2 (bits - 1) ≤ j ∧ j < Int.pow 2 (bits - 1)
          · rw [if_pos hrange, Except.ok.injEq]
            constructor
            · rintro rfl
              exact ⟨rfl, hrange⟩
            · exact And.left
          · rw [if_neg hrange]
            refine iff_of_false (fun h => nomatch h) ?_
            rintro ⟨rfl, h⟩
            exact hrange h
      | double d => simp [Document.ofTree, signed, wrongType_ne_ok]
  | _ => simp [Document.ofTree, signed, wrongType_ne_ok]

theorem readsExactly_string : string.ReadsExactly Json.string := by
  intro place _ v text
  rw [string_eq_ok_iff, Detail.text?_ofTree_eq_some_iff, eq_iff_tree_eq]
  rfl

theorem readsExactly_strings : string.list.ReadsExactly Json.strings :=
  readsExactly_string.list

theorem readsExactly_bool : bool.ReadsExactly Json.bool := by
  intro place _ v b
  rw [eq_iff_tree_eq]
  cases v.tree <;> simp [Document.ofTree, bool, Json.bool, wrongType_ne_ok]

theorem readsExactly_int32 : int32.ReadsExactly fun n => .int n.toInt := by
  intro place hplace v n
  constructor
  · intro h
    obtain ⟨i, hi, rfl⟩ := Except.map_eq_ok_iff.mp h
    obtain ⟨htree, hlower, hupper⟩ := signed_eq_ok_iff.mp hi
    rw [eq_iff_tree_eq, htree]
    change Tree.number (.int i) = .number (.int (Int32.ofInt i).toInt)
    rw [Int32.toInt_ofInt_of_le hlower hupper]
  · rintro rfl
    exact readsBack_int32 place hplace n

theorem ReadsExactly.option (h : decoder.ReadsExactly write) (hnull : ∀ a, write a ≠ .null) :
    decoder.option.ReadsExactly (Json.option write) := by
  intro place hplace v found
  by_cases hv : v = .null
  · subst hv
    cases found with
    | none => exact iff_of_true rfl rfl
    | some a => exact iff_of_false (fun h => nomatch h) (hnull a).symm
  · have hread : Decoder.option decoder place (Document.ofTree v.tree) =
        (decoder place (Document.ofTree v.tree)).map some := by
      rw [eq_iff_tree_eq] at hv
      cases htree : v.tree with
      | null => exact absurd htree hv
      | _ => rfl
    rw [hread, Except.map_eq_ok_iff]
    cases found with
    | none => simp [Json.option, hv]
    | some a => simp [Json.option, h place hplace v]

end Json.Decoder

namespace LoggingSettings

def slots : List (Slot LoggingSettings) := [
  ⟨"level", Decoder.string, fun level s => { s with level }, level, some "info"⟩,
  ⟨"json", Decoder.bool, fun json s => { s with json }, json, some false⟩]

theorem hasSlots : format.HasSlots slots where
  initial := by simp [slots, format, default]
  set_self := by simp [slots]
  set_other := by simp [slots]
  ext := by
    rintro ⟨⟩ ⟨⟩
    simp [slots]

@[mk_iff]
structure Written (o : Json.Object) (s : LoggingSettings) : Prop where
  known : o.OnlyHas ["level", "json"]
  level : o.Gives "level" (· = .string ·) (some "info") s.level
  json : o.Gives "json" (· = .bool ·) (some false) s.json

theorem reads_object_iff {place : Place} (hplace : place.origin ≠ .text) {o : Json.Object}
    {s : LoggingSettings} : decode.Reads place (.object o) s ↔ Written o s := by
  have hinner : place.inner.origin ≠ .text := hplace
  rw [decode, hasSlots.reads_object_iff hplace, written_iff]
  simp [slots, Slot.Gives, format, Decoder.readsExactly_string.reads_eq hinner,
    Decoder.readsExactly_bool.reads_eq hinner]

end LoggingSettings

namespace ServiceSettings

def slots : List (Slot ServiceSettings) := [
  ⟨"require_catalog_registration", Decoder.bool,
    fun catalogRequired s => { s with catalogRequired }, catalogRequired, some true⟩,
  ⟨"refresh_token_type", Decoder.string,
    fun refreshTokenType s => { s with refreshTokenType }, refreshTokenType,
    some "refresh_token"⟩,
  ⟨"include_expired_access_tokens", Decoder.bool,
    fun includeExpired s => { s with includeExpired }, includeExpired, some false⟩]

theorem hasSlots : format.HasSlots slots where
  initial := by simp [slots, format, default]
  set_self := by simp [slots]
  set_other := by simp [slots]
  ext := by
    rintro ⟨⟩ ⟨⟩
    simp [slots]

@[mk_iff]
structure Written (o : Json.Object) (s : ServiceSettings) : Prop where
  known : o.OnlyHas
    ["require_catalog_registration", "refresh_token_type", "include_expired_access_tokens"]
  catalogRequired : o.Gives "require_catalog_registration" (· = .bool ·) (some true)
    s.catalogRequired
  refreshTokenType : o.Gives "refresh_token_type" (· = .string ·) (some "refresh_token")
    s.refreshTokenType
  includeExpired : o.Gives "include_expired_access_tokens" (· = .bool ·) (some false)
    s.includeExpired

theorem reads_object_iff {place : Place} (hplace : place.origin ≠ .text) {o : Json.Object}
    {s : ServiceSettings} : decode.Reads place (.object o) s ↔ Written o s := by
  have hinner : place.inner.origin ≠ .text := hplace
  rw [decode, hasSlots.reads_object_iff hplace, written_iff]
  simp [slots, Slot.Gives, format, Decoder.readsExactly_string.reads_eq hinner,
    Decoder.readsExactly_bool.reads_eq hinner]

end ServiceSettings

namespace Client.GateSettings

def slots : List (Slot GateSettings) := [
  ⟨"allowed_grant_types", Decoder.string.list,
    fun allowedGrantTypes s => { s with allowedGrantTypes }, allowedGrantTypes, some []⟩]

theorem hasSlots : format.HasSlots slots where
  initial := by simp [slots, format, default]
  set_self := by simp [slots]
  set_other := by simp [slots]
  ext := by
    rintro ⟨⟩ ⟨⟩
    simp [slots]

@[mk_iff]
structure Written (o : Json.Object) (s : GateSettings) : Prop where
  known : o.OnlyHas ["allowed_grant_types"]
  allowedGrantTypes : o.Gives "allowed_grant_types" (· = .strings ·) (some []) s.allowedGrantTypes

theorem reads_object_iff {place : Place} (hplace : place.origin ≠ .text) {o : Json.Object}
    {s : GateSettings} : decode.Reads place (.object o) s ↔ Written o s := by
  have hinner : place.inner.origin ≠ .text := hplace
  rw [decode, hasSlots.reads_object_iff hplace, written_iff]
  simp [slots, Slot.Gives, format, Decoder.readsExactly_strings.reads_eq hinner]

end Client.GateSettings

namespace Matching

/-- The name of a variant, or an object with a null of that name. In settings, what stands behind
that member of the object is of no matter. -/
def Written (origin : Origin) (v : Json) (m : Matching) : Prop :=
  v = .string m.name ∨
    ∃ o : Json.Object, v = .object o ∧ o.toList.head? = some (m.name, .null) ∧
      (origin = .value → o.size = 1)

theorem variantNamed_eq_ok_iff {name : String} {m : Matching} :
    Decoder.variantNamed ([.typeOnly, .structural].map fun m => (m.name, m)) name = .ok m ↔
      m.name = name := by
  by_cases htypeOnly : name = "type_only"
  · subst htypeOnly
    cases m <;> simp [Decoder.variantNamed, Matching.name]
  · by_cases hstructural : name = "structural"
    · subst hstructural
      cases m <;> simp [Decoder.variantNamed, Matching.name]
    · cases m <;> simp [Decoder.variantNamed, Matching.name, Decoder.mismatch, Ne.symm htypeOnly,
        Ne.symm hstructural]

theorem variantMember_eq_ok_iff {place : Place} {name : String} {t : Json.Tree} {m : Matching} :
    Decoder.variantMember ([.typeOnly, .structural].map fun m => (m.name, m)) place
        (.string (.ok name) none, Document.ofTree t) = .ok m ↔
      m.name = name ∧ t = .null := by
  have hunit : (∃ u, Decoder.unit place (Document.ofTree t) = .ok u) ↔ t = .null := by
    cases t <;> simp [Document.ofTree, Decoder.unit, Decoder.wrongType_ne_ok]
  simp only [Decoder.variantMember, Except.bind_eq_ok_iff, Decoder.scanned, Except.ok.injEq,
    exists_eq_left', variantNamed_eq_ok_iff]
  rw [← hunit]
  constructor
  · rintro ⟨found, hname, u, hu, heq⟩
    obtain rfl : found = m := Except.ok.inj heq
    exact ⟨hname, u, hu⟩
  · rintro ⟨hname, u, hu⟩
    exact ⟨m, hname, u, hu, rfl⟩

theorem reads_object_iff {place : Place} (hplace : place.origin ≠ .text) {o : Json.Object}
    {m : Matching} : decode.Reads place (.object o) m ↔
      o.toList.head? = some (m.name, .null) ∧ (place.origin = .value → o.size = 1) := by
  obtain ⟨members, canonical⟩ := o
  obtain ⟨origin, depth⟩ := place
  change Decoder.variant _ _ (.object (Document.ofMembers members) none) = .ok m ↔ _
  rw [Decoder.variant, Json.Place.enter_bind hplace]
  cases members with
  | nil =>
      cases origin <;>
        simp [Document.ofMembers, Decoder.mismatch, Json.Object.toList] at hplace ⊢
  | cons member rest =>
      obtain ⟨name, t⟩ := member
      have ht : t.Canonical := canonical.2.1
      have hnull : Json.ofTree t = .null ↔ t = .null := by
        rw [Json.eq_iff_tree_eq, Json.tree_ofTree ht]
        rfl
      cases origin with
      | text => exact absurd rfl hplace
      | value =>
          cases rest with
          | nil =>
              simp only [Document.ofMembers, variantMember_eq_ok_iff]
              simp [Json.Object.toList, Json.Object.size, hnull, eq_comm]
          | cons next rest =>
              simp [Document.ofMembers, Decoder.mismatch, Json.Object.size]
      | settings =>
          simp only [Document.ofMembers, variantMember_eq_ok_iff]
          simp [Json.Object.toList, hnull, eq_comm]

theorem reads_iff {place : Place} (hplace : place.origin ≠ .text) {v : Json} {m : Matching} :
    decode.Reads place v m ↔ Written place.origin v m := by
  obtain ⟨t, canonical⟩ := v
  cases t with
  | string text =>
      change Decoder.variantNamed _ text = .ok m ↔ _
      rw [variantNamed_eq_ok_iff, Written, Json.eq_iff_tree_eq]
      simp [Json.string, Json.object, Json.eq_iff_tree_eq, eq_comm]
  | object members =>
      change decode.Reads place (.object ⟨members, canonical⟩) m ↔
        Written place.origin (.object ⟨members, canonical⟩) m
      rw [reads_object_iff hplace]
      constructor
      · exact fun h => .inr ⟨_, rfl, h⟩
      · rintro (hstring | ⟨o, ho, h⟩)
        · cases congrArg Json.tree hstring
        · rwa [Json.object_injective ho]
  | _ =>
      refine iff_of_false (fun hread => ?_) ?_
      · obtain ⟨origin, depth⟩ := place
        cases origin with
        | text => exact hplace rfl
        | _ =>
            simp only [Decoder.Reads, Document.ofTree, decode, Decoder.variant] at hread
            exact Decoder.wrongType_ne_ok hread
      · rintro (hstring | ⟨o, ho, -⟩)
        · cases congrArg Json.tree hstring
        · cases congrArg Json.tree ho

end Matching

namespace TypeRule

def slots : List (Slot TypeRule) := [
  ⟨"type", Decoder.string, fun type rule => { rule with type }, type, none⟩,
  ⟨"matching", Matching.decode, fun matching rule => { rule with matching }, matching,
    some .typeOnly⟩,
  ⟨"subset_of_empty", Decoder.bool, fun subsetOfEmpty rule => { rule with subsetOfEmpty },
    subsetOfEmpty, some false⟩]

theorem hasSlots : format.HasSlots slots where
  initial := by simp [slots, format]
  set_self := by simp [slots]
  set_other := by simp [slots]
  ext := by
    rintro ⟨⟩ ⟨⟩
    simp [slots]

@[mk_iff]
structure Written (origin : Origin) (o : Json.Object) (rule : TypeRule) : Prop where
  known : o.OnlyHas ["type", "matching", "subset_of_empty"]
  type : o.Gives "type" (· = .string ·) none rule.type
  matching : o.Gives "matching" (Matching.Written origin) (some .typeOnly) rule.matching
  subsetOfEmpty : o.Gives "subset_of_empty" (· = .bool ·) (some false) rule.subsetOfEmpty

theorem reads_object_iff {place : Place} (hplace : place.origin ≠ .text) {o : Json.Object}
    {rule : TypeRule} : decode.Reads place (.object o) rule ↔ Written place.origin o rule := by
  have hinner : place.inner.origin ≠ .text := hplace
  have hmatching : Matching.decode.Reads place.inner = Matching.Written place.origin :=
    funext₂ fun _ _ => propext (Matching.reads_iff hinner)
  rw [decode, hasSlots.reads_object_iff hplace, written_iff]
  simp [slots, Slot.Gives, format, Decoder.readsExactly_string.reads_eq hinner,
    Decoder.readsExactly_bool.reads_eq hinner, hmatching]

end TypeRule

namespace StaticRules

def slots : List (Slot StaticRules) := [
  ⟨"types", TypeRule.decode.list, fun rules s => { s with rules }, rules, some []⟩]

theorem hasSlots : format.HasSlots slots where
  initial := by simp [slots, format, empty]
  set_self := by simp [slots]
  set_other := by simp [slots]
  ext := by
    rintro ⟨⟩ ⟨⟩
    simp [slots]

def InObjects (o : Json.Object) : Prop :=
  ∀ items, o.find? "types" = some (.array items) → ∀ item ∈ items, ∃ rule, item = .object rule

@[mk_iff]
structure Written (origin : Origin) (o : Json.Object) (s : StaticRules) : Prop where
  known : o.OnlyHas ["types"]
  rules : o.Gives "types" (Json.AsObjects (TypeRule.Written origin)) (some []) s.rules

theorem reads_object_iff {place : Place} (hplace : place.origin ≠ .text) {o : Json.Object}
    (hobjects : InObjects o) {s : StaticRules} :
    decode.Reads place (.object o) s ↔ Written place.origin o s := by
  have hinner : place.inner.origin ≠ .text := hplace
  have hruleInner : place.inner.inner.origin ≠ .text := hplace
  have hrules : o.Gives "types" (TypeRule.decode.list.Reads place.inner) (some []) s.rules ↔
      o.Gives "types" (Json.AsObjects (TypeRule.Written place.origin)) (some []) s.rules :=
    Json.Object.gives_congr fun v hv =>
      Decoder.reads_objects_iff hinner (TypeRule.reads_object_iff hruleInner)
        fun items hitems => hobjects items (hitems ▸ hv)
  rw [decode, hasSlots.reads_object_iff hplace, written_iff, ← hrules]
  simp [slots, Slot.Gives, format]

end StaticRules

namespace DetailType

def slots : List (Slot DetailType) := [
  ⟨"id", Decoder.string.option, fun id t => { t with id }, id, some none⟩,
  ⟨"type", Decoder.string, fun type t => { t with type }, type, none⟩,
  ⟨"name", Decoder.string.option, fun name t => { t with name }, name, some none⟩,
  ⟨"description", Decoder.string.option, fun description t => { t with description }, description,
    some none⟩,
  ⟨"schema", Decoder.json.option, fun schema t => { t with schema }, schema, some none⟩]

theorem hasSlots : format.HasSlots slots where
  initial := by simp [slots, format, named]
  set_self := by simp [slots]
  set_other := by simp [slots]
  ext := by
    rintro ⟨⟩ ⟨⟩
    simp [slots]

/-- A null says the same as a missing member. -/
@[mk_iff]
structure Written (o : Json.Object) (t : DetailType) : Prop where
  id : o.Gives "id" (· = .option .string ·) (some none) t.id
  type : o.Gives "type" (· = .string ·) none t.type
  name : o.Gives "name" (· = .option .string ·) (some none) t.name
  description : o.Gives "description" (· = .option .string ·) (some none) t.description
  schema : o.Gives "schema" (fun v schema => schema = v.nonNull?) (some none) t.schema

theorem reads_object_iff {place : Place} (hplace : place.origin ≠ .text) {o : Json.Object}
    {t : DetailType} : decode.Reads place (.object o) t ↔ Written o t := by
  have hinner : place.inner.origin ≠ .text := hplace
  have htext := Decoder.readsExactly_string.option fun _ => nofun
  have hschema : Decoder.json.option.Reads place.inner = fun v schema => schema = v.nonNull? := by
    funext v schema
    rw [Decoder.Reads, Decoder.option_json_ofTree hinner, Except.ok.injEq]
    exact propext eq_comm
  rw [decode, hasSlots.reads_object_iff hplace, written_iff]
  simp [slots, Slot.Gives, format, Decoder.readsExactly_string.reads_eq hinner,
    htext.reads_eq hinner, hschema]

end DetailType

namespace AccessToken

def slots : List (Slot AccessToken) := [
  ⟨"token_id", Decoder.string, fun id t => { t with id }, id, none⟩,
  ⟨"tenant_id", Decoder.int32, fun tenantId t => { t with tenantId }, tenantId, none⟩,
  ⟨"consumer_key", Decoder.string, fun consumerKey t => { t with consumerKey }, consumerKey, none⟩,
  ⟨"scopes", Decoder.string.list, fun scopes t => { t with scopes }, scopes, some []⟩,
  ⟨"authorization_details", DetailSet.decode, fun details t => { t with details }, details,
    some .empty⟩]

theorem hasSlots : format.HasSlots slots where
  initial := by simp [slots, format, blank]
  set_self := by simp [slots]
  set_other := by simp [slots]
  ext := by
    rintro ⟨⟩ ⟨⟩
    simp [slots]

@[mk_iff]
structure Written (o : Json.Object) (t : AccessToken) : Prop where
  id : o.Gives "token_id" (· = .string ·) none t.id
  tenantId : o.Gives "tenant_id" (fun v n => v = .int n.toInt) none t.tenantId
  consumerKey : o.Gives "consumer_key" (· = .string ·) none t.consumerKey
  scopes : o.Gives "scopes" (· = .strings ·) (some []) t.scopes
  details : o.Gives "authorization_details"
    (fun v s => ∃ details : List Detail,
      v = .array (details.map Detail.toJson) ∧ DetailSet.ofList details = s)
    (some .empty) t.details

theorem reads_object_iff {place : Place} (hplace : place.origin ≠ .text) {o : Json.Object}
    {t : AccessToken} : decode.Reads place (.object o) t ↔ Written o t := by
  have hinner : place.inner.origin ≠ .text := hplace
  have hdetails : DetailSet.decode.Reads place.inner = fun v s => ∃ details : List Detail,
      v = .array (details.map Detail.toJson) ∧ DetailSet.ofList details = s :=
    funext₂ fun _ _ => propext (DetailSet.reads_iff hinner)
  rw [decode, hasSlots.reads_object_iff hplace, written_iff]
  simp [slots, Slot.Gives, format, Decoder.readsExactly_string.reads_eq hinner,
    Decoder.readsExactly_int32.reads_eq hinner, Decoder.readsExactly_strings.reads_eq hinner,
    hdetails]

end AccessToken

namespace Client.Application

def slots : List (Slot Application) := [
  ⟨"application_name", Decoder.string, fun name app => { app with name }, name, none⟩,
  ⟨"client_id", Decoder.string, fun clientId app => { app with clientId }, clientId, none⟩,
  ⟨"bypass_client_credentials", Decoder.bool, fun bypass app => { app with bypass }, bypass,
    some false⟩]

theorem hasSlots : format.HasSlots slots where
  initial := by simp [slots, format]
  set_self := by simp [slots]
  set_other := by simp [slots]
  ext := by
    rintro ⟨⟩ ⟨⟩
    simp [slots]

@[mk_iff]
structure Written (o : Json.Object) (app : Application) : Prop where
  name : o.Gives "application_name" (· = .string ·) none app.name
  clientId : o.Gives "client_id" (· = .string ·) none app.clientId
  bypass : o.Gives "bypass_client_credentials" (· = .bool ·) (some false) app.bypass

theorem reads_object_iff {place : Place} (hplace : place.origin ≠ .text) {o : Json.Object}
    {app : Application} : decode.Reads place (.object o) app ↔ Written o app := by
  have hinner : place.inner.origin ≠ .text := hplace
  rw [decode, hasSlots.reads_object_iff hplace, written_iff]
  simp [slots, Slot.Gives, format, Decoder.readsExactly_string.reads_eq hinner,
    Decoder.readsExactly_bool.reads_eq hinner]

end Client.Application

end RichAuthorization
