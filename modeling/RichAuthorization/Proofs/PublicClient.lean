import RichAuthorization.Proofs.Configured
import RichAuthorization.Proofs.Identity
import RichAuthorization.Proofs.Json

/-!
What the tool says of a public client: it is judged by its own record in the settings.
-/

namespace RichAuthorization.Command

open Client (Authentication Gate)

structure Allows (settings : Settings) (grantTypes : List String) : Prop where
  configured : settings.gate.allowedGrantTypes ≠ []
  allowed : ∀ grantType ∈ grantTypes, grantType ∈ settings.gate.allowedGrantTypes

structure Judges (settings : Settings) (clientId : Option String) (grantTypes : List String)
    (admitted : Bool) (known : Option String) : Prop where
  admitted_iff : admitted = true ↔ Allows settings grantTypes ∧
    ∃ id app, clientId = some id ∧ Text.isBlank id = false ∧ settings.LastRecord id app ∧
      app.bypass = true
  unknown_iff : known = none ↔ ¬ Allows settings grantTypes ∨
    ∀ id, clientId = some id → Text.isBlank id = true
  known_eq : known ≠ none → known = clientId

theorem Judges.unique {settings : Settings} {clientId known known' : Option String}
    {grantTypes : List String} {admitted admitted' : Bool}
    (h : Judges settings clientId grantTypes admitted known)
    (h' : Judges settings clientId grantTypes admitted' known') :
    admitted = admitted' ∧ known = known' := by
  refine ⟨Bool.eq_iff_iff.mpr (h.admitted_iff.trans h'.admitted_iff.symm), ?_⟩
  have hnone : known = none ↔ known' = none := h.unknown_iff.trans h'.unknown_iff.symm
  by_cases hknown : known = none
  · rw [hknown, hnone.mp hknown]
  · rw [h.known_eq hknown, h'.known_eq (mt hnone.mpr hknown)]

section

variable {clientId : Option String} {grantTypes : List String} {direct : Bool}

theorem bodyValues_grantType :
    (clientRequest clientId grantTypes direct).bodyValues Client.Request.grantTypeName =
      grantTypes := by
  have hclient : (clientId.toList.map fun id => (Client.Request.clientIdName, id)).filter
      (fun parameter => parameter.1 = Client.Request.grantTypeName) = [] := by
    cases clientId <;> rfl
  simp only [clientRequest, Client.Request.bodyValues, Client.Request.valuesOf,
    List.filter_append, hclient, List.append_nil]
  induction grantTypes with
  | nil => rfl
  | cons grantType rest ih => simpa using ih

theorem bodyValue?_clientId :
    (clientRequest clientId grantTypes direct).bodyValue? Client.Request.clientIdName =
      clientId := by
  have hgrants : (grantTypes.map fun grantType => (Client.Request.grantTypeName, grantType)).filter
      (fun parameter => parameter.1 = Client.Request.clientIdName) = [] := by
    simp [Client.Request.grantTypeName, Client.Request.clientIdName]
  simp only [clientRequest, Client.Request.bodyValue?, Client.Request.bodyValues,
    Client.Request.valuesOf, List.filter_append, hgrants, List.nil_append]
  cases clientId <;> rfl

theorem queryValue?_clientId :
    (clientRequest clientId grantTypes direct).queryValue? Client.Request.clientIdName = none := by
  cases direct <;> rfl

theorem clientId?_clientRequest :
    (clientRequest clientId grantTypes direct).clientId? = Client.Request.present clientId := by
  simp only [Client.Request.clientId?, bodyValue?_clientId, queryValue?_clientId]
  split
  · next h =>
    rw [Bool.and_eq_true, Option.isNone_iff_eq_none] at h
    exact h.1.symm
  · rfl

end

variable {settings : Settings} {ctx : RequestContext} {clientId : Option String}
  {grantTypes : List String} {direct : Bool}

theorem permits_clientRequest_iff :
    settings.opened.Permits (clientRequest clientId grantTypes direct) ↔
      Allows settings grantTypes := by
  constructor
  · rintro ⟨hconfigured, hallowed⟩
    rw [bodyValues_grantType] at hallowed
    exact ⟨hconfigured, hallowed⟩
  · rintro ⟨hconfigured, hallowed⟩
    exact ⟨hconfigured, by rwa [bodyValues_grantType]⟩

theorem bypasses_opened_iff {id : String} {r : Client.Request} :
    settings.opened.Bypasses id r ctx ↔ ∃ app, settings.LastRecord id app ∧ app.bypass = true := by
  -- The way to a main application ends at its first step: no resource is configured.
  have hshared : ∀ app, ¬ settings.opened.MainBypasses id ctx.tenant app := by
    rintro app ⟨_, _, _, _, hresource, -⟩
    cases hresource
  refine exists_congr fun app => and_congr Settings.find_configuredApplications_eq_ok_iff ?_
  simp [hshared]

theorem identified_clientRequest_eq_some_iff {id : String} :
    Authentication.unknown.identified (clientRequest clientId grantTypes direct) = some id ↔
      clientId = some id ∧ Text.isBlank id = false := by
  have hunknown : Authentication.unknown.identified (clientRequest clientId grantTypes direct) =
      (clientRequest clientId grantTypes direct).clientId? := rfl
  rw [hunknown, clientId?_clientRequest, Client.Request.present_eq_some_iff]

theorem admissible_clientRequest_iff :
    settings.opened.Admissible (clientRequest clientId grantTypes direct) .unknown ctx ↔
      Allows settings grantTypes ∧ ∃ id app, clientId = some id ∧ Text.isBlank id = false ∧
        settings.LastRecord id app ∧ app.bypass = true := by
  constructor
  · rintro ⟨⟨hconfigured, hallowed, -⟩, id, hid, hbypass⟩
    obtain ⟨app, hrecord, happ⟩ := bypasses_opened_iff.mp hbypass
    obtain ⟨hclient, hblank⟩ := identified_clientRequest_eq_some_iff.mp hid
    exact ⟨permits_clientRequest_iff.mp ⟨hconfigured, hallowed⟩, id, app, hclient, hblank,
      hrecord, happ⟩
  · rintro ⟨hallows, id, app, hclient, hblank, hrecord, happ⟩
    have hpermits : settings.opened.Permits (clientRequest clientId grantTypes direct) :=
      permits_clientRequest_iff.mpr hallows
    have hnamed : (clientRequest clientId grantTypes direct).clientId? = some id :=
      identified_clientRequest_eq_some_iff.mpr ⟨hclient, hblank⟩
    exact ⟨⟨hpermits.configured, hpermits.allowed, by simp [hnamed]⟩, id, hnamed,
      bypasses_opened_iff.mpr ⟨app, hrecord, happ⟩⟩

theorem admits_clientRequest_of_allows (h : Allows settings grantTypes) :
    (settings.opened.admits (clientRequest clientId grantTypes direct) .unknown
      ctx).value.2.clientId = Client.Request.present clientId := by
  rw [Gate.admits_value_snd (permits_clientRequest_iff.mpr h),
    Authentication.resolve_of_blank _ rfl, clientId?_clientRequest]

theorem admits_clientRequest_of_not_allows (h : ¬ Allows settings grantTypes) :
    (settings.opened.admits (clientRequest clientId grantTypes direct) .unknown ctx).value =
      (false, .unknown) :=
  Gate.admits_value_of_not_permits (mt permits_clientRequest_iff.mp h)

theorem judges_admits (settings : Settings) (clientId : Option String) (grantTypes : List String)
    (direct : Bool) (ctx : RequestContext) :
    Judges settings clientId grantTypes
      (settings.opened.admits (clientRequest clientId grantTypes direct) .unknown ctx).value.1
      (settings.opened.admits (clientRequest clientId grantTypes direct) .unknown
        ctx).value.2.clientId where
  admitted_iff := Gate.admits_fst_eq_true_iff.trans admissible_clientRequest_iff
  unknown_iff := by
    by_cases hallows : Allows settings grantTypes
    · rw [admits_clientRequest_of_allows hallows, or_iff_right (Classical.not_not.mpr hallows)]
      simp [Client.Request.present, Option.filter_eq_none_iff]
    · rw [admits_clientRequest_of_not_allows hallows]
      exact iff_of_true rfl (.inl hallows)
  known_eq hknown := by
    by_cases hallows : Allows settings grantTypes
    · rw [admits_clientRequest_of_allows hallows] at hknown ⊢
      obtain ⟨id, hid⟩ := Option.ne_none_iff_exists'.mp hknown
      rw [hid, (Client.Request.present_eq_some_iff.mp hid).1]
    · rw [admits_clientRequest_of_not_allows hallows] at hknown
      exact absurd rfl hknown

theorem publicClient_eq :
    publicClient settings ctx clientId grantTypes direct =
      let verdict := (settings.opened.admits (clientRequest clientId grantTypes direct) .unknown
        ctx).value
      .record [
        ("authenticator", .string Client.Gate.name),
        ("admitted", .bool verdict.1),
        ("client_id", .option .string verdict.2.clientId)] := by
  rw [publicClient, Settings.startGate_value]

theorem publicClient_decided_by_record (settings : Settings) (clientId : Option String)
    (grantTypes : List String) :
    ∃ admitted known, Judges settings clientId grantTypes admitted known ∧
      ∀ config tenant organization direct, ∃ output,
        (Invocation.mk config tenant organization (.publicClient clientId grantTypes direct)).report
            settings = .printed output ∧
          output.member? "admitted" = some (.bool admitted) ∧
          output.member? "client_id" = some (.option .string known) := by
  have hdefault := judges_admits settings clientId grantTypes false .default
  refine ⟨_, _, hdefault, ?_⟩
  intro config tenant organization direct
  -- Both verdicts are what the settings say, and the settings say one thing only.
  have hjudged := judges_admits settings clientId grantTypes direct
    (Invocation.mk config tenant organization (.publicClient clientId grantTypes direct)).context
  obtain ⟨hadmitted, hknown⟩ := hjudged.unique hdefault
  refine ⟨_, congrArg Report.printed publicClient_eq, ?_, ?_⟩
  · rw [← hadmitted]
    exact Json.member?_record _ _
  · rw [← hknown]
    exact Json.member?_record _ _

end RichAuthorization.Command

namespace RichAuthorization.Payments

open Command (Invocation run)

def console : Settings.Surroundings where
  fileText _ := some ("\x7b\"public_client_authn\":\x7b\"allowed_grant_types\":[\"password\"]\x7d,"
    ++ "\"applications\":[\x7b\"application_name\":\"Old\",\"client_id\":\"spa\"\x7d,"
    ++ "\x7b\"application_name\":\"Console\",\"client_id\":\"spa\","
    ++ "\"bypass_client_credentials\":true\x7d]\x7d")
  environment := .empty

def plainArgs : List String :=
  ["--config", "rar.json", "public-client", "--client-id", "spa", "--grant-type", "password"]

def organizationArgs : List String :=
  ["--tenant=acme", "-c", "rar.json", "public-client", "--direct", "--client-id", "spa",
    "--grant-type=password", "--organization", "org"]

def plain : Invocation :=
  ⟨some "rar.json", RequestContext.defaultTenant, none,
    .publicClient (some "spa") ["password"] false⟩

def inOrganization : Invocation :=
  ⟨some "rar.json", "acme", some "org", .publicClient (some "spa") ["password"] true⟩

theorem publicClient_decided_spa :
    ∃ output output', run console plainArgs = .printed output ∧
      run console organizationArgs = .printed output' ∧
      output.member? "admitted" = some (.bool true) ∧
      output'.member? "admitted" = some (.bool true) := by
  have hplain : Command.readArguments plainArgs = .ok plain :=
    Except.toOption_eq_some_iff.mp (by decide +kernel)
  have horganization : Command.readArguments organizationArgs = .ok inOrganization :=
    Except.toOption_eq_some_iff.mp (by decide +kernel)
  have hsettings : (Settings.load console (some "rar.json")).toOption.map
      (fun s => (s.gate, s.applications)) =
        some (⟨["password"]⟩, [⟨"Old", "spa", false⟩, ⟨"Console", "spa", true⟩]) := by
    decide +kernel
  obtain ⟨settings, hload, hparts⟩ := Option.map_eq_some_iff.mp hsettings
  rw [Except.toOption_eq_some_iff] at hload
  obtain ⟨hgate, happlications⟩ := Prod.mk.inj hparts
  have hrecord : settings.LastRecord "spa" ⟨"Console", "spa", true⟩ :=
    ⟨[⟨"Old", "spa", false⟩], [], happlications, rfl, List.forall_mem_nil _⟩
  obtain ⟨admitted, known, hjudged, hprinted⟩ :=
    Command.publicClient_decided_by_record settings (some "spa") ["password"]
  obtain rfl : admitted = true :=
    hjudged.admitted_iff.mpr
      ⟨⟨by simp [hgate], by simp [hgate]⟩, _, _, rfl, by decide, hrecord, rfl⟩
  obtain ⟨output, hreport, hverdict, -⟩ := hprinted plain.config plain.tenant none false
  obtain ⟨output', hreport', hverdict', -⟩ :=
    hprinted inOrganization.config inOrganization.tenant (some "org") true
  exact ⟨output, output', (Command.run_eq_report hplain hload).trans hreport,
    (Command.run_eq_report horganization hload).trans hreport', hverdict, hverdict'⟩

end RichAuthorization.Payments
