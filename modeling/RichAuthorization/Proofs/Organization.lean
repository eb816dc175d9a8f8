import RichAuthorization.Proofs.Gate
import RichAuthorization.Proofs.Record

/-!
Organizations of request contexts, and who relies on them.
-/

namespace RichAuthorization

open Json (Document Place RecordFormat Decoder)

namespace RequestContext

inductive Built : RequestContext → Prop
  | default : Built .default
  | withTenant {ctx : RequestContext} (tenant : String) :
      Built ctx → Built (ctx.withTenant tenant)
  | withOrganization {ctx : RequestContext} (organization : String) :
      Built ctx → Built (ctx.withOrganization organization)

inductive Obtained : RequestContext → Prop
  | built {ctx : RequestContext} : Built ctx → Obtained ctx
  | read {place : Place} {d : Document} {ctx : RequestContext} :
      decode place d = .ok ctx → Obtained ctx

def Named (ctx : RequestContext) : Prop :=
  ∀ organization, ctx.organization = some organization → Text.isBlank organization = false

theorem named_default : default.Named := by
  intro organization h
  cases h

theorem Named.withTenant {ctx : RequestContext} (h : ctx.Named) (tenant : String) :
    (ctx.withTenant tenant).Named := h

theorem named_withOrganization (ctx : RequestContext) (organization : String) :
    (ctx.withOrganization organization).Named := by
  intro found h
  simp only [withOrganization] at h
  split at h
  · cases h
  · next hblank =>
    cases h
    simpa using hblank

theorem Built.named {ctx : RequestContext} (h : Built ctx) : ctx.Named := by
  induction h with
  | default => exact named_default
  | withTenant tenant _ ih => exact ih.withTenant tenant
  | withOrganization organization _ _ => exact named_withOrganization _ organization

theorem Named.isOrganizationScoped_iff {ctx : RequestContext} (h : ctx.Named) :
    ctx.isOrganizationScoped = true ↔
      ∃ organization, ctx.organization = some organization ∧
        Text.isBlank organization = false := by
  rw [isOrganizationScoped, Option.isSome_iff_exists]
  exact exists_congr fun organization => (and_iff_left_of_imp (h organization)).symm

/-- The organization that a document writes, under its name or in the second place. -/
def writtenOrganization? : Document → Option String
  | .object members _ => (Document.member? "organization_id" members).bind Document.text?
  | .array items _ => items[1]?.bind Document.text?
  | _ => none

-- No other field touches the organization, and its own field takes the text as it is written.
theorem exists_fields : ∃ tenantField organizationField,
    format.fields = [tenantField, organizationField] ∧
      organizationField.name = "organization_id" ∧
      tenantField.name ≠ "organization_id" ∧ tenantField.Keeps organization ∧
      organizationField.Sets organization Document.text? :=
  ⟨_, _, rfl, rfl, by decide, Json.Field.keeps_required fun _ _ => rfl,
    Json.Field.sets_withDefault fun _ _ _ h _ => (Decoder.text?_of_option_string h).symm⟩

theorem decode_organization {place : Place} {d : Document} {ctx : RequestContext}
    (h : decode place d = .ok ctx) : ctx.organization = writtenOrganization? d := by
  obtain ⟨tenantField, organizationField, hfields, hname, htenant, hkeeps, hsets⟩ := exists_fields
  rcases RecordFormat.record_of_decode h with ⟨members, stop, rfl⟩ | ⟨items, stop, rfl⟩
  · obtain ⟨inner, seen, -, hread, -, -⟩ := RecordFormat.decode_object_eq_ok_iff.mp h
    have hothers : ∀ other field, format.field? other = some field →
        other ≠ "organization_id" → field.Keeps organization := by
      intro other field hfield hne
      have hmem := List.mem_of_find?_eq_some hfield
      rw [hfields, List.mem_cons, List.mem_singleton] at hmem
      rcases hmem with rfl | rfl
      · exact hkeeps
      · exact absurd (hname.symm.trans (RecordFormat.name_of_field? hfield)).symm hne
    have hfield : format.field? "organization_id" = some organizationField := by
      simp [RecordFormat.field?, hfields, hname, htenant]
    have hview := RecordFormat.readMembers_view hothers hfield hsets List.not_mem_nil hread
    rw [hview, writtenOrganization?]
    cases Document.member? "organization_id" members <;> rfl
  · obtain ⟨inner, surplus, hread⟩ := RecordFormat.exists_readItems_of_decode h
    have hsplit : format.fields = [tenantField] ++ organizationField :: [] := hfields
    rw [hsplit] at hread
    have hview := RecordFormat.readItems_view (List.forall_mem_singleton.mpr hkeeps) hsets
      (List.forall_mem_nil _) hread
    rw [hview, writtenOrganization?]
    cases items[1]? <;> rfl

def WritesBlank (d : Document) : Prop :=
  ∃ organization, writtenOrganization? d = some organization ∧ Text.isBlank organization = true

theorem named_iff_of_decode {place : Place} {d : Document} {ctx : RequestContext}
    (h : decode place d = .ok ctx) : ctx.Named ↔ ¬ WritesBlank d := by
  simp [Named, WritesBlank, decode_organization h]

theorem Obtained.named_iff {ctx : RequestContext} (h : ctx.Obtained) :
    ctx.Named ↔ ctx.Built ∨ ∃ place d, decode place d = .ok ctx ∧ ¬ WritesBlank d := by
  constructor
  · intro hnamed
    cases h with
    | built hbuilt => exact .inl hbuilt
    | read hread => exact .inr ⟨_, _, hread, (named_iff_of_decode hread).mp hnamed⟩
  · rintro (hbuilt | ⟨place, d, hread, hwritten⟩)
    · exact hbuilt.named
    · exact (named_iff_of_decode hread).mpr hwritten

end RequestContext

namespace Client

namespace Question

def asksManagement : Question → Bool
  | .application _ _ => false
  | _ => true

end Question

namespace Gate

variable {g : Gate} {r : Request} {a : Authentication} {ctx : RequestContext} {id : String}

theorem questions_bypass_of_not_shared
    (h : ¬ (r.isApiBased = true ∧ ctx.isOrganizationScoped = true)) :
    (g.bypass id r ctx).questions = [.application id ctx.tenant] := by
  have hown : (r.isApiBased && ctx.isOrganizationScoped) = false := by simpa using h
  simp only [bypass, Traced.questions_bind, Traced.questions_ask, Traced.ask_value]
  cases g.applications.find id ctx.tenant with
  | error e => rfl
  | ok app => simp [hown]

theorem questions_judgeClient :
    (g.judgeClient id r ctx).questions = (g.bypass id r ctx).questions := by
  simp only [judgeClient, Traced.questions_bind]
  cases (g.bypass id r ctx).value with
  | error e => cases e <;> simp
  | ok answer => cases answer <;> simp

theorem questions_admits_of_not_considers (h : ¬ g.Considers r) :
    (g.admits r a ctx).questions = [] := by
  obtain ⟨level, line, known, heq, -⟩ := admits_of_not_considers (a := a) h
  rw [heq]
  simp [refuse]

theorem questions_admits_of_considers (h : g.Considers r) (hid : a.identified r = some id) :
    (g.admits r a ctx).questions = (g.bypass id r ctx).questions := by
  rw [admits_of_considers h hid, Traced.questions_bind, questions_judgeClient]
  cases (g.judgeClient id r ctx).value <;> simp

theorem questions_admits : (g.admits r a ctx).questions = [] ∨
    ∃ id, (g.admits r a ctx).questions = (g.bypass id r ctx).questions := by
  by_cases hconsiders : g.Considers r
  · obtain ⟨id, hid⟩ := Authentication.exists_identified (a := a) hconsiders.named
    exact .inr ⟨id, questions_admits_of_considers hconsiders hid⟩
  · exact .inl (questions_admits_of_not_considers hconsiders)

theorem shared_of_asksManagement {q : Question} (h : q ∈ (g.admits r a ctx).questions)
    (hq : q.asksManagement = true) :
    r.isApiBased = true ∧ ctx.isOrganizationScoped = true := by
  by_cases hshared : r.isApiBased = true ∧ ctx.isOrganizationScoped = true
  · exact hshared
  · have hquestions : (g.admits r a ctx).questions = [] ∨
        ∃ id, (g.admits r a ctx).questions = (g.bypass id r ctx).questions := questions_admits
    rcases hquestions with hnone | ⟨id, hbypass⟩
    · simp [hnone] at h
    · rw [hbypass, questions_bypass_of_not_shared hshared, List.mem_singleton] at h
      subst h
      cases hq

end Gate

end Client

theorem organization_not_blank_iff {ctx : RequestContext} (h : ctx.Obtained) :
    (ctx.Named ↔ ctx.Built ∨
      ∃ place d, RequestContext.decode place d = .ok ctx ∧ ¬ RequestContext.WritesBlank d) ∧
    (∀ place d, RequestContext.decode place d = .ok ctx →
      ctx.organization = RequestContext.writtenOrganization? d ∧
        (ctx.Named ↔ ¬ RequestContext.WritesBlank d)) ∧
    (ctx.Named →
      (ctx.isOrganizationScoped = true ↔
        ∃ organization, ctx.organization = some organization ∧
          Text.isBlank organization = false) ∧
      ∀ (g : Client.Gate) (r : Client.Request) (a : Client.Authentication),
        ∀ q ∈ (g.admits r a ctx).questions, q.asksManagement = true →
          ∃ organization, ctx.organization = some organization ∧
            Text.isBlank organization = false) := by
  refine ⟨h.named_iff, ?_, ?_⟩
  · intro place d hread
    exact ⟨RequestContext.decode_organization hread, RequestContext.named_iff_of_decode hread⟩
  · intro hnamed
    refine ⟨hnamed.isOrganizationScoped_iff, ?_⟩
    intro g r a q hq hmanagement
    obtain ⟨-, hscoped⟩ := Client.Gate.shared_of_asksManagement hq hmanagement
    exact hnamed.isOrganizationScoped_iff.mp hscoped

namespace Payments

def portal : Client.Gate where
  settings := ⟨["client_credentials"]⟩
  applications := ⟨fun clientId _ => .ok ⟨"portal", clientId, false⟩⟩
  management :=
    { resourceId := fun _ _ _ => .ok "shared"
      mainApplicationId := fun _ => .ok "main"
      tenantId := fun _ => .ok 1
      application := fun _ _ => .ok none }

def directRequest : Client.Request :=
  ⟨[("client_id", "portal"), ("response_mode", "direct")], []⟩

def writtenContext : Json :=
  .record [("tenant_domain", .string "acme"), ("organization_id", .string "org")]

theorem organization_not_blank_iff_written :
    (RequestContext.mk "acme" (some "org")).Obtained ∧
      (RequestContext.mk "acme" (some "org")).Named ∧
      RequestContext.writtenOrganization? (Document.ofTree writtenContext.tree) = some "org" ∧
      .resourceId "portal" Client.Gate.inboundType "acme" ∈
        (portal.admits directRequest .unknown ⟨"acme", some "org"⟩).questions ∧
      ∃ organization, (RequestContext.mk "acme" (some "org")).organization = some organization ∧
        Text.isBlank organization = false := by
  have hread : RequestContext.decode.ofJson writtenContext = .ok ⟨"acme", some "org"⟩ := rfl
  have hwritten : ¬ RequestContext.WritesBlank (Document.ofTree writtenContext.tree) := by
    rintro ⟨organization, heq, hblank⟩
    cases heq
    revert hblank
    decide
  obtain ⟨-, hdocument, hnamed⟩ := organization_not_blank_iff (.read hread)
  obtain ⟨horganization, hiff⟩ := hdocument _ _ hread
  have hcontext := hiff.mpr hwritten
  have hasked : .resourceId "portal" Client.Gate.inboundType "acme" ∈
      (portal.admits directRequest .unknown ⟨"acme", some "org"⟩).questions := by decide +kernel
  exact ⟨.read hread, hcontext, horganization.symm, hasked,
    (hnamed hcontext).2 _ _ _ _ hasked rfl⟩

def blankContext : RequestContext :=
  ⟨"acme", some ""⟩

theorem decode_blank_organization :
    (RequestContext.decode.ofText
        "\x7b\"tenant_domain\":\"acme\",\"organization_id\":\"\"\x7d").toOption =
        some blankContext ∧
      Text.isBlank "" = true ∧ blankContext.isOrganizationScoped = true ∧
      .resourceId "portal" Client.Gate.inboundType "acme" ∈
        (portal.admits directRequest .unknown blankContext).questions :=
  ⟨by decide +kernel, rfl, rfl, by decide +kernel⟩

end Payments

end RichAuthorization
