import RichAuthorization.Proofs.Validation

/-!
One notion of a supported type: the view of the supported types and the validator agree on it.
-/

namespace RichAuthorization

theorem Registry.isSupportedType_value_iff {r : Registry} {type : String} {catalog : Catalog}
    {ctx : RequestContext} :
    (r.isSupportedType type catalog ctx).value = true ↔
      type ∈ (r.supportedTypes catalog ctx).value := by
  simp [isSupportedType]

namespace Validator

variable {v : Validator} {ctx : RequestContext} {type : String}

theorem supports_iff_of_catalogRequired (h : v.catalogRequired = true) :
    v.Supports ctx type ↔ (v.registry.isSupportedType type v.catalog ctx).value = true := by
  rw [Registry.isSupportedType_value_iff, Registry.mem_supportedTypes_value,
    Option.isSome_iff_exists]
  constructor
  · rintro ⟨p, hregistered, hdeclared⟩
    exact ⟨⟨p, hregistered⟩, hdeclared h⟩
  · rintro ⟨⟨p, hregistered⟩, hdeclared⟩
    exact ⟨p, hregistered, fun _ => hdeclared⟩

theorem supports_iff_of_not_catalogRequired (h : v.catalogRequired = false) :
    v.Supports ctx type ↔ ∃ p, v.registry.find? type = some p := by
  refine exists_congr fun p => ⟨fun hp => hp.registered, fun hregistered => ⟨hregistered, ?_⟩⟩
  simp [h]

end Validator

theorem Registry.supported_types_agree (r : Registry) (catalog : Catalog) (ctx : RequestContext) :
    (∀ type, ((r.isSupportedType type catalog ctx).value = true ↔
        type ∈ (r.supportedTypes catalog ctx).value) ∧
      (type ∈ (r.supportedTypes catalog ctx).value ↔ ∃ listed p,
        catalog.list "" ctx.tenant = .ok listed ∧ type ∈ listed.map DetailType.type ∧
          r.find? type = some p)) ∧
    ∀ catalogRequired requested granted o,
      ((Validator.mk r catalog catalogRequired).validate ctx requested granted).value = .ok o →
      ∀ d ∈ requested.toList, (d, .unsupportedType) ∈ o.rejected ↔
        if catalogRequired then (r.isSupportedType d.type catalog ctx).value = false
        else r.find? d.type = none := by
  refine ⟨fun type => ⟨isSupportedType_value_iff, ?_⟩, ?_⟩
  · rw [mem_supportedTypes_value, Option.isSome_iff_exists]
    constructor
    · rintro ⟨⟨p, hregistered⟩, listed, hlisted, hmem⟩
      exact ⟨listed, p, hlisted, hmem, hregistered⟩
    · rintro ⟨listed, p, hlisted, hmem, hregistered⟩
      exact ⟨⟨p, hregistered⟩, listed, hlisted, hmem⟩
  · intro catalogRequired requested granted o h d hd
    have hrejected : (d, .unsupportedType) ∈ o.rejected ↔
        ¬ (Validator.mk r catalog catalogRequired).Supports ctx d.type := by
      simp [Validator.mem_rejected_unsupported_iff h, hd, Validator.Supports]
    rw [hrejected]
    cases catalogRequired with
    | true => simp [Validator.supports_iff_of_catalogRequired]
    | false =>
        simp [Validator.supports_iff_of_not_catalogRequired, Option.eq_none_iff_forall_ne_some]

namespace Payments

def untidyCatalog : Catalog :=
  ⟨fun _ _ => .ok [.named "payment", .named " ", .named "consent", .named "payment"]⟩

def undeclaredOutcome : Outcome :=
  ⟨[(account, .rejected .notGranted), (detail ["cancel"], .validated),
    (consent, .rejected .unsupportedType),
    (detail ["initiate", "status"], .rejected .notGranted)]⟩

theorem payments_supported_alike :
    ((Validator.mk registry untidyCatalog true).validate .default requested granted).value =
        .ok outcome ∧
      (account, .unsupportedType) ∈ outcome.rejected ∧
      (registry.isSupportedType "account" untidyCatalog .default).value = false ∧
      ((Validator.mk registry untidyCatalog false).validate .default requested granted).value =
        .ok undeclaredOutcome ∧
      (consent, .unsupportedType) ∈ undeclaredOutcome.rejected ∧
      registry.find? "consent" = none ∧
      (account, .unsupportedType) ∉ undeclaredOutcome.rejected := by
  obtain ⟨-, hagree⟩ := Registry.supported_types_agree registry untidyCatalog .default
  have hrun : ((Validator.mk registry untidyCatalog true).validate .default requested
      granted).value = .ok outcome := rfl
  have hundeclared : ((Validator.mk registry untidyCatalog false).validate .default requested
      granted).value = .ok undeclaredOutcome := rfl
  have haccount : account ∈ requested.toList := .head _
  have hconsent : consent ∈ requested.toList := .tail _ (.tail _ (.head _))
  have hview := (hagree true requested granted outcome hrun account haccount).mpr rfl
  have hlookup := hagree false requested granted undeclaredOutcome hundeclared
  refine ⟨hrun, hview, rfl, hundeclared, (hlookup consent hconsent).mpr rfl, rfl, ?_⟩
  rw [hlookup account haccount]
  rintro ⟨⟩

end Payments

end RichAuthorization
