import RichAuthorization.Client.Gate

/-!
The gate admits exactly the clients that its rule admits, and afterwards holds the client that the
rule looked at.
-/

namespace RichAuthorization

namespace Traced

variable {Q α β : Type}

def OnlyAsks (t : Traced Q α) : Prop :=
  ∀ e ∈ t.events, ∃ question, e = .asked question

theorem OnlyAsks.pure (a : α) : (Pure.pure a : Traced Q α).OnlyAsks := by
  intro e he
  simp at he

theorem OnlyAsks.ask (question : Q) (answer : α) : (Traced.ask question answer).OnlyAsks := by
  intro e he
  exact ⟨question, List.mem_singleton.mp he⟩

theorem OnlyAsks.bind {t : Traced Q α} {f : α → Traced Q β} (ht : t.OnlyAsks)
    (hf : ∀ a, (f a).OnlyAsks) : (t >>= f).OnlyAsks := by
  intro e he
  rw [bind_events, List.mem_append] at he
  rcases he with he | he
  · exact ht e he
  · exact hf t.value e he

end Traced

namespace Client

namespace Request

theorem present_eq_some_iff {value : Option String} {id : String} :
    present value = some id ↔ value = some id ∧ Text.isBlank id = false := by
  simp [present, Option.filter_eq_some_iff]

theorem present_present (value : Option String) : present (present value) = present value := by
  simp [present, Option.filter_filter]

theorem present_clientId? (r : Request) : present r.clientId? = r.clientId? := by
  simp only [clientId?]
  split <;> rw [present_present]

end Request

namespace Authentication

def identified (a : Authentication) (r : Request) : Option String :=
  (Request.present a.clientId).or r.clientId?

theorem present_eq_none_iff {a : Authentication} :
    Request.present a.clientId = none ↔ a.isBlank = true := by
  obtain ⟨_ | known⟩ := a <;> simp [Request.present, isBlank]

theorem resolve_eq_identified (a : Authentication) (r : Request) :
    a.resolve r = ⟨a.identified r⟩ := by
  cases h : a.isBlank with
  | true =>
      have hnone := present_eq_none_iff.mpr h
      rw [resolve_of_blank r h, identified, hnone, Option.none_or]
  | false =>
      obtain ⟨_ | known⟩ := a
      · simp [isBlank] at h
      · have hknown : Text.isBlank known = false := by simpa [isBlank] using h
        have hpresent : Request.present (some known) = some known :=
          Request.present_eq_some_iff.mpr ⟨rfl, hknown⟩
        rw [resolve_of_not_blank r h, identified, hpresent, Option.some_or]

theorem present_identified (a : Authentication) (r : Request) :
    Request.present (a.identified r) = a.identified r := by
  rw [identified]
  cases h : Request.present a.clientId with
  | none => rw [Option.none_or, Request.present_clientId?]
  | some known =>
      rw [Option.some_or]
      have hpresent := Request.present_present a.clientId
      rwa [h] at hpresent

theorem not_blank_of_identified {a : Authentication} {r : Request} {id : String}
    (h : a.identified r = some id) : Text.isBlank id = false := by
  have hpresent := a.present_identified r
  rw [h] at hpresent
  exact (Request.present_eq_some_iff.mp hpresent).2

theorem exists_identified {a : Authentication} {r : Request} (h : r.clientId?.isSome = true) :
    ∃ id, a.identified r = some id := by
  rw [← Option.isSome_iff_exists]
  simp [identified, h]

end Authentication

namespace Gate

def MainBypasses (g : Gate) (id tenant : String) (shared : Application) : Prop :=
  ∃ sharedId mainId mainTenant main,
    g.management.resourceId id inboundType tenant = .ok sharedId ∧
    g.management.mainApplicationId sharedId = .ok mainId ∧
    g.management.tenantId mainId = .ok mainTenant ∧
    g.management.application shared.name mainTenant = .ok (some main) ∧ main.bypass = true

def Bypasses (g : Gate) (id : String) (r : Request) (ctx : RequestContext) : Prop :=
  ∃ app, g.applications.find id ctx.tenant = .ok app ∧
    (app.bypass = true ∨ r.isApiBased = true ∧ ctx.isOrganizationScoped = true ∧
      g.MainBypasses id ctx.tenant app)

structure Considers (g : Gate) (r : Request) : Prop where
  configured : g.settings.allowedGrantTypes ≠ []
  allowed : ∀ grantType ∈ r.bodyValues Request.grantTypeName,
    grantType ∈ g.settings.allowedGrantTypes
  named : r.clientId?.isSome = true

structure Admissible (g : Gate) (r : Request) (a : Authentication) (ctx : RequestContext) : Prop
    extends Considers g r where
  bypassed : ∃ id, a.identified r = some id ∧ g.Bypasses id r ctx

theorem mainBypass_value_eq_true_iff {g : Gate} {id tenant : String} {shared : Application} :
    (g.mainBypass id tenant shared).value = true ↔ g.MainBypasses id tenant shared := by
  simp only [mainBypass, mainApplication, MainBypasses, Traced.bind_value, Traced.ask_value]
  cases hresource : g.management.resourceId id inboundType tenant with
  | error e => simp
  | ok sharedId =>
      cases hmain : g.management.mainApplicationId sharedId with
      | error e => simp [hmain]
      | ok mainId =>
          cases htenant : g.management.tenantId mainId with
          | error e => simp [hmain, htenant]
          | ok mainTenant =>
              cases happ : g.management.application shared.name mainTenant with
              | error e => simp [hmain, htenant, happ]
              | ok main? => cases main? <;> simp [hmain, htenant, happ]

variable {g : Gate} {r : Request} {a : Authentication} {ctx : RequestContext} {id : String}

theorem bypass_value_eq_ok_true_iff :
    (g.bypass id r ctx).value = .ok true ↔ g.Bypasses id r ctx := by
  simp only [bypass, Bypasses, Traced.bind_value, Traced.ask_value]
  cases hfind : g.applications.find id ctx.tenant with
  | error e => simp
  | ok app =>
      have hmain := @mainBypass_value_eq_true_iff g id ctx.tenant app
      by_cases hshared : r.isApiBased = true ∧ ctx.isOrganizationScoped = true
      · simp [hshared, hmain, or_comm]
      · have hown : (r.isApiBased && ctx.isOrganizationScoped) = false := by simpa using hshared
        have hvacuous : r.isApiBased = true → ctx.isOrganizationScoped = true →
            g.MainBypasses id ctx.tenant app → app.bypass = true :=
          fun hapi horg => absurd ⟨hapi, horg⟩ hshared
        simpa [hown] using hvacuous

theorem judgeClient_value_eq_true_iff :
    (g.judgeClient id r ctx).value = true ↔ g.Bypasses id r ctx := by
  rw [← bypass_value_eq_ok_true_iff]
  simp only [judgeClient, Traced.bind_value]
  cases (g.bypass id r ctx).value with
  | error e => cases e <;> simp
  | ok answer => cases answer <;> simp

def blankRefusal : Event Question :=
  .logged .debug "Client id is not present in the request"

theorem admits_of_considers (h : g.Considers r) (hid : a.identified r = some id) :
    g.admits r a ctx = (g.judgeClient id r ctx >>= fun admitted =>
      if admitted then pure (true, ⟨some id⟩) else pure (false, ⟨some id⟩)) := by
  have hempty : g.settings.allowedGrantTypes.isEmpty = false := by simpa using h.configured
  have hallowed : g.allowsGrantTypes r = true := by simpa [allowsGrantTypes] using h.allowed
  have hnone : r.clientId?.isNone = false := by simpa using h.named
  have hpresent : Request.present (some id) = some id :=
    Request.present_eq_some_iff.mpr ⟨rfl, Authentication.not_blank_of_identified hid⟩
  simp [admits, clientId, a.resolve_eq_identified r, hempty, hallowed, hnone, hpresent, hid]

theorem admits_of_not_considers (h : ¬ g.Considers r) :
    ∃ level line known, g.admits r a ctx = refuse level line known ∧
      .logged level line ≠ blankRefusal := by
  simp only [admits]
  split
  · exact ⟨_, _, _, rfl, by simp [blankRefusal]⟩
  · next hempty =>
    split
    · exact ⟨_, _, _, rfl, by simp [blankRefusal]⟩
    · next hallowed =>
      split
      · exact ⟨_, _, _, rfl, by simp [blankRefusal]⟩
      · next hnone =>
        refine absurd ⟨by simpa using hempty, ?_, ?_⟩ h
        · simpa [allowsGrantTypes] using hallowed
        · simpa [Option.isSome_iff_ne_none] using hnone

theorem admits_value_of_considers (h : g.Considers r) (hid : a.identified r = some id) :
    (g.admits r a ctx).value = ((g.judgeClient id r ctx).value, ⟨some id⟩) := by
  rw [admits_of_considers h hid, Traced.bind_value]
  cases (g.judgeClient id r ctx).value <;> rfl

theorem considers_of_admits (h : (g.admits r a ctx).value.1 = true) : g.Considers r := by
  by_cases hconsiders : g.Considers r
  · exact hconsiders
  · obtain ⟨level, line, known, heq, -⟩ := admits_of_not_considers (a := a) hconsiders
    rw [heq] at h
    simp [refuse] at h

theorem mainApplication_onlyAsks (tenant : String) (shared : Application) :
    (g.mainApplication id tenant shared).OnlyAsks := by
  refine .bind (.ask _ _) ?_
  rintro (_ | sharedId)
  · exact .pure _
  refine .bind (.ask _ _) ?_
  rintro (_ | mainId)
  · exact .pure _
  refine .bind (.ask _ _) ?_
  rintro (_ | mainTenant)
  · exact .pure _
  exact .ask _ _

theorem blankRefusal_notMem_mainBypass {tenant : String} {shared : Application} :
    blankRefusal ∉ (g.mainBypass id tenant shared).events := by
  simp only [mainBypass, Traced.bind_events, List.mem_append]
  rintro (h | h)
  · obtain ⟨question, heq⟩ := mainApplication_onlyAsks tenant shared _ h
    cases heq
  · revert h
    cases (g.mainApplication id tenant shared).value with
    | error e => simp [blankRefusal, Traced.log]
    | ok main? => cases main? <;> simp

theorem blankRefusal_notMem_bypass : blankRefusal ∉ (g.bypass id r ctx).events := by
  simp only [bypass, Traced.bind_events, Traced.ask_value, List.mem_append]
  rintro (h | h)
  · simp [blankRefusal, Traced.ask] at h
  · revert h
    cases g.applications.find id ctx.tenant with
    | error e => simp
    | ok app =>
        simp only
        split
        · simp [blankRefusal_notMem_mainBypass]
        · simp

theorem blankRefusal_notMem_judgeClient : blankRefusal ∉ (g.judgeClient id r ctx).events := by
  simp only [judgeClient, Traced.bind_events, List.mem_append]
  rintro (h | h)
  · exact blankRefusal_notMem_bypass h
  · revert h
    cases (g.bypass id r ctx).value with
    | error e => cases e <;> simp [blankRefusal, Traced.log]
    | ok answer => cases answer <;> simp [blankRefusal, Traced.log]

theorem blankRefusal_notMem_admits : blankRefusal ∉ (g.admits r a ctx).events := by
  by_cases hconsiders : g.Considers r
  · obtain ⟨id, hid⟩ := Authentication.exists_identified (a := a) hconsiders.named
    rw [admits_of_considers hconsiders hid, Traced.bind_events, List.mem_append]
    rintro (h | h)
    · exact blankRefusal_notMem_judgeClient h
    · split at h <;> simp at h
  · obtain ⟨level, line, known, heq, hne⟩ := admits_of_not_considers hconsiders
    rw [heq]
    intro h
    exact hne (List.mem_singleton.mp h).symm

theorem admits_fst_eq_true_iff : (g.admits r a ctx).value.1 = true ↔ g.Admissible r a ctx := by
  constructor
  · intro h
    have hconsiders := considers_of_admits h
    obtain ⟨id, hid⟩ := Authentication.exists_identified (a := a) hconsiders.named
    rw [admits_value_of_considers hconsiders hid] at h
    exact ⟨hconsiders, id, hid, judgeClient_value_eq_true_iff.mp h⟩
  · intro h
    obtain ⟨id, hid, hbypass⟩ := h.bypassed
    rw [admits_value_of_considers h.toConsiders hid]
    exact judgeClient_value_eq_true_iff.mpr hbypass

theorem admits_exactly_admissible (g : Gate) (r : Request) (a : Authentication)
    (ctx : RequestContext) :
    ((g.admits r a ctx).value.1 = true ↔ g.Admissible r a ctx) ∧
      (r.clientId?.isSome = true →
        ∃ id, Request.present (clientId r a).1 = some id ∧ a.identified r = some id) ∧
      blankRefusal ∉ (g.admits r a ctx).events ∧
      ((g.admits r a ctx).value.1 = true →
        ∃ id, a.identified r = some id ∧ Text.isBlank id = false ∧
          (g.admits r a ctx).value.2 = ⟨some id⟩) := by
  refine ⟨admits_fst_eq_true_iff, ?_, blankRefusal_notMem_admits, ?_⟩
  · intro hnamed
    obtain ⟨id, hid⟩ := Authentication.exists_identified (a := a) hnamed
    refine ⟨id, ?_, hid⟩
    rw [clientId, a.resolve_eq_identified r, a.present_identified r, hid]
  · intro h
    have hconsiders := considers_of_admits h
    obtain ⟨id, hid⟩ := Authentication.exists_identified (a := a) hconsiders.named
    refine ⟨id, hid, Authentication.not_blank_of_identified hid, ?_⟩
    rw [admits_value_of_considers hconsiders hid]

end Gate

end Client

end RichAuthorization
