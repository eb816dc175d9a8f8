import RichAuthorization.Proofs.Forms
import RichAuthorization.Proofs.Unread

/-!
Which objects are read as settings, and as which settings.
-/

namespace RichAuthorization

open Json (Decoder Document Origin Place Slot)

namespace Settings

def slots : List (Slot Settings) := [
  ⟨"logging", LoggingSettings.decode, fun logging s => { s with logging }, logging,
    some ⟨"info", false⟩⟩,
  ⟨"rar", ServiceSettings.decode, fun service s => { s with service }, service,
    some ⟨true, "refresh_token", false⟩⟩,
  ⟨"static_rar_plugin", StaticRules.decode, fun rules s => { s with rules }, rules, some ⟨[]⟩⟩,
  ⟨"public_client_authn", Client.GateSettings.decode, fun gate s => { s with gate }, gate,
    some ⟨[]⟩⟩,
  ⟨"catalog", Decoder.nameMap DetailType.decode.list, fun catalog s => { s with catalog }, catalog,
    some .empty⟩,
  ⟨"tokens", Decoder.nameMap AccessToken.decode, fun tokens s => { s with tokens }, tokens,
    some .empty⟩,
  ⟨"applications", Client.Application.decode.list, fun applications s => { s with applications },
    applications, some []⟩]

theorem hasSlots : format.HasSlots slots where
  initial := by
    simp [slots, format, default, LoggingSettings.default, ServiceSettings.default,
      StaticRules.empty, Client.GateSettings.default]
  set_self := by simp [slots]
  set_other := by simp [slots]
  ext := by
    rintro ⟨⟩ ⟨⟩
    simp [slots]

def memberNames : List String :=
  ["logging", "rar", "static_rar_plugin", "public_client_authn", "catalog", "tokens",
    "applications"]

def parts : List (String × List String) := [
  ("logging", ["level", "json"]),
  ("rar",
    ["require_catalog_registration", "refresh_token_type", "include_expired_access_tokens"]),
  ("static_rar_plugin", ["types"]),
  ("public_client_authn", ["allowed_grant_types"])]

structure InObjects (o : Json.Object) : Prop where
  parts : ∀ name ∈ parts.map Prod.fst, ∀ v, o.find? name = some v → ∃ p, v = .object p
  rules : ∀ p, o.find? "static_rar_plugin" = some (.object p) → StaticRules.InObjects p

@[mk_iff]
structure Written (place : Place) (o : Json.Object) (s : Settings) : Prop where
  known : o.OnlyHas memberNames
  logging : o.Gives "logging" (Json.AsObject LoggingSettings.Written) (some ⟨"info", false⟩)
    s.logging
  service : o.Gives "rar" (Json.AsObject ServiceSettings.Written)
    (some ⟨true, "refresh_token", false⟩) s.service
  rules : o.Gives "static_rar_plugin" (Json.AsObject (StaticRules.Written place.origin))
    (some ⟨[]⟩) s.rules
  gate : o.Gives "public_client_authn" (Json.AsObject Client.GateSettings.Written) (some ⟨[]⟩)
    s.gate
  catalog : o.Gives "catalog"
    (Json.MapOf (DetailType.decode.list.Reads place.inner.inner)) (some .empty) s.catalog
  tokens : o.Gives "tokens"
    (Json.MapOf (AccessToken.decode.Reads place.inner.inner)) (some .empty) s.tokens
  applications : o.Gives "applications"
    (Client.Application.decode.list.Reads place.inner) (some []) s.applications

inductive Misnames (o : Json.Object) (name : String) : Prop
  | top (hname : (o.find? name).isSome = true) (hunknown : name ∉ memberNames)
  | part {part : String} {known : List String} {p : Json.Object} (hpart : (part, known) ∈ parts)
      (hp : o.find? part = some (.object p)) (hname : (p.find? name).isSome = true)
      (hunknown : name ∉ known)
  | rule {p rule : Json.Object} {items : List Json}
      (hp : o.find? "static_rar_plugin" = some (.object p))
      (hitems : p.find? "types" = some (.array items)) (hrule : .object rule ∈ items)
      (hname : (rule.find? name).isSome = true)
      (hunknown : name ∉ ["type", "matching", "subset_of_empty"])

/-- What a member of the settings may be replaced with when only unknown members of types, tokens
and applications differ. -/
def UnreadApart (name : String) : Json → Json → Prop :=
  if name = "catalog" then
    Json.MembersRelated
      (Json.ItemsRelated (Json.AgreeOn ["id", "type", "name", "description", "schema"]))
  else if name = "tokens" then
    Json.MembersRelated (Json.AgreeOn
      ["token_id", "tenant_id", "consumer_key", "scopes", "authorization_details"])
  else if name = "applications" then
    Json.ItemsRelated
      (Json.AgreeOn ["application_name", "client_id", "bypass_client_credentials"])
  else Eq

variable {place : Place} {o : Json.Object}

theorem gives_part_iff {α : Type} {decoder : Decoder α} {form : Json.Object → α → Prop}
    {default? : Option α} {a : α} {name : String} (hobjects : InObjects o)
    (hname : name ∈ parts.map Prod.fst)
    (hreads : ∀ p, o.find? name = some (.object p) →
      (decoder.Reads place (.object p) a ↔ form p a)) :
    o.Gives name (decoder.Reads place) default? a ↔
      o.Gives name (Json.AsObject form) default? a :=
  Json.Object.gives_asObject_iff (hobjects.parts name hname) hreads

theorem reads_object_iff (hplace : place.origin ≠ .text) (hobjects : InObjects o) {s : Settings} :
    decode.Reads place (.object o) s ↔ Written place o s := by
  have hinner : place.inner.origin ≠ .text := hplace
  have hlogging : o.Gives "logging" (LoggingSettings.decode.Reads place.inner)
      (some ⟨"info", false⟩) s.logging ↔ _ :=
    gives_part_iff hobjects (by decide) fun _ _ => LoggingSettings.reads_object_iff hinner
  have hservice : o.Gives "rar" (ServiceSettings.decode.Reads place.inner)
      (some ⟨true, "refresh_token", false⟩) s.service ↔ _ :=
    gives_part_iff hobjects (by decide) fun _ _ => ServiceSettings.reads_object_iff hinner
  have hrules : o.Gives "static_rar_plugin" (StaticRules.decode.Reads place.inner)
      (some ⟨[]⟩) s.rules ↔ _ :=
    gives_part_iff hobjects (by decide) fun p hp =>
      StaticRules.reads_object_iff hinner (hobjects.rules p hp)
  have hgate : o.Gives "public_client_authn" (Client.GateSettings.decode.Reads place.inner)
      (some ⟨[]⟩) s.gate ↔ _ :=
    gives_part_iff hobjects (by decide) fun _ _ => Client.GateSettings.reads_object_iff hinner
  have hcatalog : (Decoder.nameMap DetailType.decode.list).Reads place.inner =
      Json.MapOf (DetailType.decode.list.Reads place.inner.inner) :=
    funext₂ fun _ _ => propext (Decoder.reads_nameMap_iff hinner)
  have htokens : (Decoder.nameMap AccessToken.decode).Reads place.inner =
      Json.MapOf (AccessToken.decode.Reads place.inner.inner) :=
    funext₂ fun _ _ => propext (Decoder.reads_nameMap_iff hinner)
  rw [decode, hasSlots.reads_object_iff hplace, written_iff]
  simp [slots, Slot.Gives, format, hlogging, hservice, hrules, hgate, hcatalog, htokens,
    memberNames]

theorem onlyHas_of_reads_part (hplace : place.origin ≠ .text) {s : Settings}
    (hread : decode.Reads place (.object o) s) {part : String} {known : List String}
    {p : Json.Object} (hpart : (part, known) ∈ parts) (hp : o.find? part = some (.object p)) :
    p.OnlyHas known := by
  have hinner : place.inner.origin ≠ .text := hplace
  have hgives := hasSlots.gives_of_reads hplace hread
  simp only [slots, List.forall_mem_cons, Slot.Gives] at hgives
  obtain ⟨hlogging, hservice, hrules, hgate, -⟩ := hgives
  simp only [parts, List.mem_cons, Prod.mk.injEq, List.not_mem_nil, or_false] at hpart
  rcases hpart with ⟨rfl, rfl⟩ | ⟨rfl, rfl⟩ | ⟨rfl, rfl⟩ | ⟨rfl, rfl⟩
  · rw [Json.Object.gives_of_find? hp] at hlogging
    exact LoggingSettings.hasSlots.onlyHas_of_reads hinner rfl hlogging
  · rw [Json.Object.gives_of_find? hp] at hservice
    exact ServiceSettings.hasSlots.onlyHas_of_reads hinner rfl hservice
  · rw [Json.Object.gives_of_find? hp] at hrules
    exact StaticRules.hasSlots.onlyHas_of_reads hinner rfl hrules
  · rw [Json.Object.gives_of_find? hp] at hgate
    exact Client.GateSettings.hasSlots.onlyHas_of_reads hinner rfl hgate

theorem onlyHas_of_reads_rule (hplace : place.origin ≠ .text) {s : Settings}
    (hread : decode.Reads place (.object o) s) {p rule : Json.Object} {items : List Json}
    (hp : o.find? "static_rar_plugin" = some (.object p))
    (hitems : p.find? "types" = some (.array items)) (hrule : .object rule ∈ items) :
    rule.OnlyHas ["type", "matching", "subset_of_empty"] := by
  have hinner : place.inner.origin ≠ .text := hplace
  have hgives := hasSlots.gives_of_reads hplace hread
  simp only [slots, List.forall_mem_cons, Slot.Gives] at hgives
  obtain ⟨-, -, hrules, -⟩ := hgives
  rw [Json.Object.gives_of_find? hp] at hrules
  have htypes : p.Gives "types" (TypeRule.decode.list.Reads place.inner.inner) (some [])
      s.rules.rules := StaticRules.hasSlots.gives_of_reads hinner hrules _ List.mem_cons_self
  rw [Json.Object.gives_of_find? hitems] at htypes
  have hrulesPlace : place.inner.inner.origin ≠ .text := hplace
  have hrulePlace : place.inner.inner.inner.origin ≠ .text := hplace
  obtain ⟨a, ha⟩ := Decoder.exists_reads_of_mem hrulesPlace htypes hrule
  exact TypeRule.hasSlots.onlyHas_of_reads hrulePlace rfl ha

theorem not_reads_of_misnames (hplace : place.origin ≠ .text) {name : String}
    (h : Misnames o name) (s : Settings) : ¬ decode.Reads place (.object o) s := by
  intro hread
  cases h with
  | top hname hunknown => exact hunknown (hasSlots.onlyHas_of_reads hplace rfl hread name hname)
  | part hpart hp hname hunknown =>
      exact hunknown (onlyHas_of_reads_part hplace hread hpart hp name hname)
  | rule hp hitems hrule hname hunknown =>
      exact hunknown (onlyHas_of_reads_rule hplace hread hp hitems hrule name hname)

theorem readsAlike_unreadApart :
    ∀ slot ∈ slots, slot.decoder.ReadsAlike (UnreadApart slot.name) := by
  have htypes : DetailType.decode.ReadsAlike
      (Json.AgreeOn ["id", "type", "name", "description", "schema"]) :=
    Json.RecordFormat.readsAlike_of_open rfl fun name => DetailType.hasSlots.isSome_field?_iff.mp
  have htokens : AccessToken.decode.ReadsAlike (Json.AgreeOn
      ["token_id", "tenant_id", "consumer_key", "scopes", "authorization_details"]) :=
    Json.RecordFormat.readsAlike_of_open rfl fun name => AccessToken.hasSlots.isSome_field?_iff.mp
  have happlications : Client.Application.decode.ReadsAlike
      (Json.AgreeOn ["application_name", "client_id", "bypass_client_credentials"]) :=
    Json.RecordFormat.readsAlike_of_open rfl fun name =>
      Client.Application.hasSlots.isSome_field?_iff.mp
  simp [slots, UnreadApart, Decoder.ReadsAlike.refl, htypes.list.nameMap, htokens.nameMap,
    happlications.list]

theorem strict_where_declared (place : Place) (hplace : place.origin ≠ .text) :
    (∀ o s, InObjects o → (decode.Reads place (.object o) s ↔ Written place o s)) ∧
      (∀ o name, Misnames o name → ∃ e,
        decode place (Document.ofTree (Json.object o).tree) = .error e) ∧
      (∀ o, (∀ t, DetailType.decode.Reads place (.object o) t ↔ DetailType.Written o t) ∧
        (∀ t, AccessToken.decode.Reads place (.object o) t ↔ AccessToken.Written o t) ∧
        ∀ app, Client.Application.decode.Reads place (.object o) app ↔
          Client.Application.Written o app) ∧
      ∀ o o' : Json.Object, o.Related UnreadApart o' →
        decode place (Document.ofTree (Json.object o).tree) =
          decode place (Document.ofTree (Json.object o').tree) := by
  refine ⟨fun o s hobjects => reads_object_iff hplace hobjects, fun o name h => ?_, fun o => ?_,
    fun o o' hrelated => hasSlots.decode_congr readsAlike_unreadApart hrelated place⟩
  · exact Except.exists_error_iff.mpr fun ⟨s, hread⟩ => not_reads_of_misnames hplace h s hread
  · exact ⟨fun _ => DetailType.reads_object_iff hplace,
      fun _ => AccessToken.reads_object_iff hplace,
      fun _ => Client.Application.reads_object_iff hplace⟩

end Settings

namespace Payments

def ruleObject (matchingName : String) : Json.Object :=
  .ofList [("type", .string "payment"), (matchingName, .string "structural")]

def ruled (matchingName : String) : Json.Object :=
  .ofList [("types", .array [.object (ruleObject matchingName)])]

def declared (members : List (String × Json)) : Json.Object :=
  .ofList [("bank", .array [.record (("type", .string "payment") :: members)])]

def configured (rules types : Json.Object) : Json.Object :=
  .ofList [("logging", .record [("level", .string "debug")]), ("static_rar_plugin", .object rules),
    ("catalog", .object types)]

def noted : Json.Object :=
  configured (ruled "matching") (declared [("note", .string "audited")])

def misspelt : Json.Object :=
  configured (ruled "matchng") (declared [])

def configuredSettings : Settings :=
  { Settings.default with
    logging := ⟨"debug", false⟩
    rules := ⟨[⟨"payment", .structural, false⟩]⟩
    catalog := .ofList [("bank", [.named "payment"])] }

theorem inObjects_noted : Settings.InObjects noted where
  parts := by
    have hlogging : noted.find? "logging" = some (.record [("level", .string "debug")]) := rfl
    have hservice : noted.find? "rar" = none := rfl
    have hrules : noted.find? "static_rar_plugin" = some (.object (ruled "matching")) := rfl
    have hgate : noted.find? "public_client_authn" = none := rfl
    intro name hname v hv
    simp only [Settings.parts, List.map_cons, List.map_nil, List.mem_cons, List.not_mem_nil,
      or_false] at hname
    rcases hname with rfl | rfl | rfl | rfl
    · exact ⟨_, (Option.some.inj (hlogging.symm.trans hv)).symm⟩
    · exact nomatch hservice.symm.trans hv
    · exact ⟨_, (Option.some.inj (hrules.symm.trans hv)).symm⟩
    · exact nomatch hgate.symm.trans hv
  rules := by
    intro p hp items hitems item hitem
    have hrules : noted.find? "static_rar_plugin" = some (.object (ruled "matching")) := rfl
    obtain rfl := Json.object_injective (Option.some.inj (hrules.symm.trans hp))
    have htypes : (ruled "matching").find? "types" =
        some (.array [.object (ruleObject "matching")]) := rfl
    obtain rfl := Json.array_injective (Option.some.inj (htypes.symm.trans hitems))
    exact ⟨_, List.mem_singleton.mp hitem⟩

theorem unreadApart_noted :
    noted.Related Settings.UnreadApart (configured (ruled "matching") (declared [])) := by
  have hagree : ∀ name ∈ ["id", "type", "name", "description", "schema"],
      (Json.Object.ofList [("type", .string "payment"), ("note", .string "audited")]).find? name =
        (Json.Object.ofList [("type", .string "payment")]).find? name := by
    simp only [List.forall_mem_cons]
    exact ⟨rfl, rfl, rfl, rfl, rfl, List.forall_mem_nil _⟩
  have hcatalog : Settings.UnreadApart "catalog"
      (.object (declared [("note", .string "audited")])) (.object (declared [])) :=
    have htypes := List.Forall₂.cons (.inr ⟨_, _, rfl, rfl, hagree⟩) .nil
    .inr ⟨_, _, rfl, rfl, .cons ⟨rfl, .inr ⟨_, _, rfl, rfl, htypes⟩⟩ .nil⟩
  exact .cons ⟨rfl, hcatalog⟩ (.cons ⟨rfl, rfl⟩ (.cons ⟨rfl, rfl⟩ .nil))

theorem configured_strictly :
    Settings.InObjects noted ∧ Settings.Written ⟨.settings, 0⟩ noted configuredSettings ∧
      Decoder.ofSettings Settings.decode (.object noted) = .ok configuredSettings ∧
      Decoder.ofSettings Settings.decode
        (.object (configured (ruled "matching") (declared []))) = .ok configuredSettings ∧
      Settings.Misnames misspelt "matchng" ∧
      ∃ e, Decoder.ofSettings Settings.decode (.object misspelt) = .error e := by
  have hread : Decoder.ofSettings Settings.decode (.object noted) = .ok configuredSettings := rfl
  have hrules : misspelt.find? "static_rar_plugin" = some (.object (ruled "matchng")) := rfl
  have htypes : (ruled "matchng").find? "types" =
      some (.array [.object (ruleObject "matchng")]) := rfl
  have hmisspelt : Settings.Misnames misspelt "matchng" :=
    .rule hrules htypes List.mem_cons_self rfl (by decide)
  obtain ⟨hform, hmisnamed, -, hunread⟩ :=
    Settings.strict_where_declared ⟨.settings, 0⟩ (by decide)
  exact ⟨inObjects_noted, (hform noted configuredSettings inObjects_noted).mp hread, hread,
    (hunread _ _ unreadApart_noted).symm.trans hread, hmisspelt,
    hmisnamed misspelt "matchng" hmisspelt⟩

end Payments

end RichAuthorization
