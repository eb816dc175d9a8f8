import RichAuthorization.Proofs.Organization

/-!
What the gate looks up, and what a failure of the management of applications can change.
-/

namespace RichAuthorization.Client.Gate

/-- The way from a shared application to the one it was shared from: what is asked on it, and what
comes of it. -/
inductive Leads (g : Gate) (id tenant : String) (shared : Application) :
    List Question → Except ManagementError (Option Application) → Prop
  | noResource {e : ManagementError} :
      g.management.resourceId id "oauth2" tenant = .error e →
      Leads g id tenant shared [.resourceId id "oauth2" tenant] (.error e)
  | noMain {sharedId : String} {e : ManagementError} :
      g.management.resourceId id "oauth2" tenant = .ok sharedId →
      g.management.mainApplicationId sharedId = .error e →
      Leads g id tenant shared
        [.resourceId id "oauth2" tenant, .mainApplicationId sharedId] (.error e)
  | noTenant {sharedId mainId : String} {e : ManagementError} :
      g.management.resourceId id "oauth2" tenant = .ok sharedId →
      g.management.mainApplicationId sharedId = .ok mainId →
      g.management.tenantId mainId = .error e →
      Leads g id tenant shared
        [.resourceId id "oauth2" tenant, .mainApplicationId sharedId, .tenantId mainId] (.error e)
  | arrives {sharedId mainId : String} {mainTenant : Int32} :
      g.management.resourceId id "oauth2" tenant = .ok sharedId →
      g.management.mainApplicationId sharedId = .ok mainId →
      g.management.tenantId mainId = .ok mainTenant →
      Leads g id tenant shared
        [.resourceId id "oauth2" tenant, .mainApplicationId sharedId, .tenantId mainId,
          .applicationNamed shared.name mainTenant]
        (g.management.application shared.name mainTenant)

variable {g : Gate} {r : Request} {a : Authentication} {ctx : RequestContext}
  {id tenant : String} {shared : Application}

theorem Leads.asksManagement {asked : List Question}
    {answer : Except ManagementError (Option Application)}
    (h : g.Leads id tenant shared asked answer) : ∀ q ∈ asked, q.asksManagement = true := by
  cases h <;> simp [Question.asksManagement]

theorem leads_mainApplication :
    g.Leads id tenant shared (g.mainApplication id tenant shared).questions
      (g.mainApplication id tenant shared).value := by
  simp only [mainApplication, inboundType, Traced.questions_bind, Traced.questions_ask,
    Traced.bind_value, Traced.ask_value]
  cases hresource : g.management.resourceId id "oauth2" tenant with
  | error e => exact .noResource hresource
  | ok sharedId =>
      simp only [Traced.questions_bind, Traced.questions_ask, Traced.bind_value, Traced.ask_value]
      cases hmain : g.management.mainApplicationId sharedId with
      | error e => exact .noMain hresource hmain
      | ok mainId =>
          simp only [Traced.questions_bind, Traced.questions_ask, Traced.bind_value,
            Traced.ask_value]
          cases htenant : g.management.tenantId mainId with
          | error e => exact .noTenant hresource hmain htenant
          | ok mainTenant => exact .arrives hresource hmain htenant

theorem questions_mainBypass :
    (g.mainBypass id tenant shared).questions = (g.mainApplication id tenant shared).questions := by
  simp only [mainBypass, Traced.questions_bind]
  cases (g.mainApplication id tenant shared).value with
  | error e => simp
  | ok main? => cases main? <;> simp

theorem mainBypass_value_of_not_found
    (h : ∀ main, (g.mainApplication id tenant shared).value ≠ .ok (some main)) :
    (g.mainBypass id tenant shared).value = false := by
  simp only [mainBypass, Traced.bind_value]
  cases hvalue : (g.mainApplication id tenant shared).value with
  | error e => rfl
  | ok main? =>
      cases main? with
      | none => rfl
      | some main => exact absurd hvalue (h main)

theorem questions_bypass_of_unknown {e : LookupError}
    (h : g.applications.find id ctx.tenant = .error e) :
    (g.bypass id r ctx).questions = [.application id ctx.tenant] := by
  simp [bypass, h]

theorem bypass_of_shared (hfind : g.applications.find id ctx.tenant = .ok shared)
    (hapi : r.isApiBased = true) (hscoped : ctx.isOrganizationScoped = true) :
    (g.bypass id r ctx).questions =
        .application id ctx.tenant :: (g.mainApplication id ctx.tenant shared).questions ∧
      (g.bypass id r ctx).value =
        .ok ((g.mainBypass id ctx.tenant shared).value || shared.bypass) := by
  simp [bypass, hfind, hapi, hscoped, questions_mainBypass]

theorem judgeClient_value_of_bypass {answer : Bool} (h : (g.bypass id r ctx).value = .ok answer) :
    (g.judgeClient id r ctx).value = answer := by
  simp only [judgeClient, Traced.bind_value, h]
  cases answer <;> rfl

theorem exists_questions_bypass (g : Gate) (id : String) (r : Request) (ctx : RequestContext) :
    ∃ later, (g.bypass id r ctx).questions = .application id ctx.tenant :: later ∧
      ∀ q ∈ later, q.asksManagement = true := by
  by_cases hshared : r.isApiBased = true ∧ ctx.isOrganizationScoped = true
  · cases hfind : g.applications.find id ctx.tenant with
    | error e => exact ⟨[], questions_bypass_of_unknown hfind, List.forall_mem_nil _⟩
    | ok shared =>
        exact ⟨_, (bypass_of_shared hfind hshared.1 hshared.2).1,
          leads_mainApplication.asksManagement⟩
  · exact ⟨[], questions_bypass_of_not_shared hshared, List.forall_mem_nil _⟩

theorem admits_looks_up_exactly (g : Gate) (r : Request) (a : Authentication)
    (ctx : RequestContext) :
    (¬ g.Considers r → (g.admits r a ctx).questions = []) ∧
      (g.Considers r → ∃ id later, a.identified r = some id ∧
        (g.admits r a ctx).questions = .application id ctx.tenant :: later ∧
        (∀ e, g.applications.find id ctx.tenant = .error e → later = []) ∧
        (¬ (r.isApiBased = true ∧ ctx.isOrganizationScoped = true) → later = []) ∧
        ∀ shared, g.applications.find id ctx.tenant = .ok shared →
          r.isApiBased = true → ctx.isOrganizationScoped = true →
          ∃ answer, g.Leads id ctx.tenant shared later answer ∧
            ((∀ main, answer ≠ .ok (some main)) →
              (g.admits r a ctx).value.1 = shared.bypass)) := by
  refine ⟨questions_admits_of_not_considers, ?_⟩
  intro hconsiders
  obtain ⟨id, hid⟩ := Authentication.exists_identified (a := a) hconsiders.named
  obtain ⟨later, hlater, -⟩ := exists_questions_bypass g id r ctx
  refine ⟨id, later, hid, (questions_admits_of_considers hconsiders hid).trans hlater, ?_, ?_, ?_⟩
  · intro e hfind
    exact (List.cons_inj_right _).mp (hlater.symm.trans (questions_bypass_of_unknown hfind))
  · intro hown
    exact (List.cons_inj_right _).mp (hlater.symm.trans (questions_bypass_of_not_shared hown))
  · intro shared hfind hapi hscoped
    obtain ⟨hquestions, hvalue⟩ := bypass_of_shared hfind hapi hscoped
    -- What is asked after the first lookup is the way to the main application, and nothing else.
    obtain rfl := (List.cons_inj_right _).mp (hlater.symm.trans hquestions)
    refine ⟨_, leads_mainApplication, ?_⟩
    intro hnone
    have hbypass : (g.bypass id r ctx).value = .ok shared.bypass := by
      rw [hvalue, mainBypass_value_of_not_found hnone, Bool.false_or]
    rw [admits_value_of_considers hconsiders hid]
    exact judgeClient_value_of_bypass hbypass

end RichAuthorization.Client.Gate
