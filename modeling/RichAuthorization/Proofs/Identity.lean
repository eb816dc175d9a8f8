import RichAuthorization.Proofs.Lookups

/-!
The client that is authenticated, through any number of calls.
-/

namespace RichAuthorization.Client

namespace Gate

structure Permits (g : Gate) (r : Request) : Prop where
  configured : g.settings.allowedGrantTypes ≠ []
  allowed : ∀ grantType ∈ r.bodyValues Request.grantTypeName,
    grantType ∈ g.settings.allowedGrantTypes

variable {g : Gate} {r : Request} {a : Authentication} {ctx : RequestContext}

theorem admits_value_of_not_permits (h : ¬ g.Permits r) :
    (g.admits r a ctx).value = (false, a) := by
  simp only [admits]
  split
  · rfl
  · next hempty =>
    split
    · rfl
    · next hallowed =>
      refine absurd ⟨by simpa using hempty, ?_⟩ h
      simpa [allowsGrantTypes] using hallowed

theorem admits_value_of_unnamed (h : g.Permits r) (hnone : r.clientId? = none) :
    (g.admits r a ctx).value = (false, a.resolve r) := by
  have hempty : g.settings.allowedGrantTypes.isEmpty = false := by simpa using h.configured
  have hallowed : g.allowsGrantTypes r = true := by simpa [allowsGrantTypes] using h.allowed
  simp [admits, clientId, refuse, hempty, hallowed, hnone]

theorem admits_value_snd (h : g.Permits r) : (g.admits r a ctx).value.2 = a.resolve r := by
  cases hnamed : r.clientId? with
  | none => rw [admits_value_of_unnamed h hnamed]
  | some named =>
      have hconsiders : g.Considers r := ⟨h.configured, h.allowed, by simp [hnamed]⟩
      obtain ⟨id, hid⟩ := Authentication.exists_identified (a := a) hconsiders.named
      rw [admits_value_of_considers hconsiders hid, a.resolve_eq_identified r, hid]

theorem clientId_of_application_mem {id tenant : String}
    (h : .application id tenant ∈ (g.admits r a ctx).questions) :
    (clientId r a).1 = some id := by
  by_cases hconsiders : g.Considers r
  · obtain ⟨known, hknown⟩ := Authentication.exists_identified (a := a) hconsiders.named
    obtain ⟨later, hlater, hmanagement⟩ := exists_questions_bypass g known r ctx
    rw [questions_admits_of_considers hconsiders hknown, hlater, List.mem_cons] at h
    rcases h with h | h
    · obtain ⟨rfl, -⟩ := Question.application.inj h
      rw [clientId, a.resolve_eq_identified r, hknown]
    · cases hmanagement _ h
  · rw [questions_admits_of_not_considers hconsiders] at h
    cases h

end Gate

inductive Call where
  | admits (g : Gate) (r : Request) (ctx : RequestContext)
  | clientId (r : Request)
  | authenticate (r : Request) (ctx : RequestContext)

namespace Authentication

def after (a : Authentication) : Call → Authentication
  | .admits g r ctx => (g.admits r a ctx).value.2
  | .clientId r => (Gate.clientId r a).2
  | .authenticate _ _ => a

def afterAll (a : Authentication) (calls : List Call) : Authentication :=
  calls.foldl after a

variable {a : Authentication}

theorem after_of_not_blank (h : a.isBlank = false) (call : Call) : a.after call = a := by
  cases call with
  | admits g r ctx =>
      -- A gate that does not let the grant types pass leaves even a blank client as it is.
      by_cases hpermits : g.Permits r
      · exact (Gate.admits_value_snd hpermits).trans (resolve_of_not_blank r h)
      · exact congrArg Prod.snd (Gate.admits_value_of_not_permits hpermits)
  | clientId r => exact resolve_of_not_blank r h
  | authenticate r ctx => rfl

theorem afterAll_of_not_blank (h : a.isBlank = false) (calls : List Call) :
    a.afterAll calls = a := by
  induction calls with
  | nil => rfl
  | cons call rest ih =>
      rw [afterAll, List.foldl_cons, after_of_not_blank h call]
      exact ih

theorem afterAll_append (a : Authentication) (earlier later : List Call) :
    a.afterAll (earlier ++ later) = (a.afterAll earlier).afterAll later :=
  List.foldl_append

theorem resolve_resolve (a : Authentication) (r : Request) :
    (a.resolve r).resolve r = a.resolve r := by
  cases h : a.isBlank with
  | true =>
      rw [resolve_of_blank r h, resolve]
      split <;> rfl
  | false => rw [resolve_of_not_blank r h, resolve_of_not_blank r h]

end Authentication

theorem resolved_client_is_kept (g : Gate) (r : Request) (a : Authentication)
    (ctx : RequestContext) :
    (∀ earlier later id, (a.afterAll earlier).clientId = some id → Text.isBlank id = false →
        (a.afterAll (earlier ++ later)).clientId = some id) ∧
      (¬ g.Permits r → (g.admits r a ctx).value = (false, a)) ∧
      (g.Permits r → (g.admits r a ctx).value.2.clientId =
        if a.isBlank then r.clientId? else a.clientId) ∧
      Gate.clientId r (Gate.clientId r a).2 = Gate.clientId r a ∧
      ∀ id tenant, .application id tenant ∈ (g.admits r a ctx).questions →
        (Gate.clientId r a).1 = some id := by
  refine ⟨?_, Gate.admits_value_of_not_permits, ?_, ?_, ?_⟩
  · intro earlier later id hid hblank
    have hkept : (a.afterAll earlier).isBlank = false := by simpa [Authentication.isBlank, hid]
    rw [Authentication.afterAll_append, Authentication.afterAll_of_not_blank hkept, hid]
  · intro hpermits
    rw [Gate.admits_value_snd hpermits, Authentication.resolve]
    split <;> rfl
  · simp only [Gate.clientId, a.resolve_resolve r]
  · intro id tenant h
    exact Gate.clientId_of_application_mem h

end RichAuthorization.Client
