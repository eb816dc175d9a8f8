import RichAuthorization.Proofs.Configured
import RichAuthorization.Proofs.Dependence
import RichAuthorization.Proofs.Json

/-!
What the tool says of a token that the settings hold: what it says of the same details when they
are validated against those that the token was granted.
-/

namespace RichAuthorization

namespace Service

variable {settings : Settings} {ctx : RequestContext} {query : TokenQuery}
  {response : IntrospectionResponse} {known : AccessToken}

theorem verifiedToken_started :
    (settings.started.verifiedToken query response).value =
      settings.configuredToken query.token := by
  simp only [verifiedToken]
  split <;> rfl

theorem describe_value (s : Service) (ctx : RequestContext) (token : TokenContext) :
    (s.describe ctx token).value =
      match (s.validator.validate ctx (Validator.effectiveRequest token) token.granted).value with
      | .ok outcome => .ok (detailsMembers outcome.validated)
      | .error e => .error e := by
  simp only [describe, Validator.validatedForToken, Traced.bind_value]
  cases (s.validator.validate ctx (Validator.effectiveRequest token) token.granted).value <;> rfl

theorem introspect_started (hnone : response.context = none)
    (hknown : settings.tokens.find? query.token = some known) :
    (settings.started.introspect ctx query response).value =
      match (settings.started.validator.validate ctx
        (if query.requested.isEmpty then known.details else query.requested)
        known.details).value with
      | .ok outcome => .ok (detailsMembers outcome.validated)
      | .error e => .error e.toIntrospectionError := by
  have hverified : (settings.started.verifiedToken query response).value = .ok known := by
    rw [verifiedToken_started, Settings.configuredToken, hknown]
  have hdescribed := describe_value settings.started ctx ⟨query, response.report, some known⟩
  simp only [Validator.effectiveRequest, TokenContext.granted] at hdescribed
  simp only [introspect, additionalData_eq_of_none hnone, Traced.bind_value, hverified, hdescribed]
  cases (settings.started.validator.validate ctx _ known.details).value <;> rfl

end Service

namespace Command

def requestedDetails : Option String → Except String DetailSet
  | some text => readDetails "requested" text
  | none => .ok .empty

def Asks (requested : Option String) (granted asked : DetailSet) : Prop :=
  ∃ details, requestedDetails requested = .ok details ∧
    asked = if details.isEmpty then granted else details

def Report.ofValidation : Except ServiceError Outcome → Report
  | .ok outcome => .printed outcome.toJson
  | .error e => .failed e.message

def Report.ofToken : Except ServiceError Outcome → Report
  | .ok outcome => .printed (.object (Service.detailsMembers outcome.validated))
  | .error e => .failed e.toIntrospectionError.message

structure Report.Agrees (validation introspection : Report) : Prop where
  failed_iff : (∃ message, introspection = .failed message) ↔
    ∃ message, validation = .failed message
  printed : ∀ output, validation = .printed output → ∃ details,
    output.member? "validated" = some (.array details) ∧
      introspection = .printed (.record
        (if details.isEmpty then [] else [("authorization_details", .array details)]))

theorem Report.agrees_ofToken (result : Except ServiceError Outcome) :
    (ofValidation result).Agrees (ofToken result) := by
  cases result with
  | error e => exact ⟨by simp [ofValidation, ofToken], by simp [ofValidation]⟩
  | ok outcome =>
      refine ⟨by simp [ofValidation, ofToken], ?_⟩
      rintro output ⟨⟩
      refine ⟨outcome.validated.toList.map Detail.toJson, Json.member?_record _ _, ?_⟩
      have hempty : (outcome.validated.toList.map Detail.toJson).isEmpty =
          outcome.validated.isEmpty := List.isEmpty_map
      simp only [ofToken, Service.detailsMembers, hempty]
      split <;> rfl

section

variable {settings : Settings} {ctx : RequestContext} {token : String} {known : AccessToken}
  {requested tokenType : Option String} {details asked granted : DetailSet}
  {requestedText grantedText : String}

theorem introspect_eq (hmarker : Text.isBlank settings.service.refreshTokenType = false)
    (hdetails : requestedDetails requested = .ok details) :
    introspect settings ctx token tokenType requested =
      match (settings.started.introspect ctx ⟨token, details⟩
        { IntrospectionResponse.blank with active := true, tokenType }).value with
      | .ok members => .ok (.object members)
      | .error e => .error e.message := by
  simp only [introspect, configuredService_eq hmarker]
  cases requested with
  | none =>
      cases hdetails
      rfl
  | some text =>
      simp only [requestedDetails] at hdetails
      simp only [hdetails]
      rfl

theorem ofExcept_introspect (hmarker : Text.isBlank settings.service.refreshTokenType = false)
    (hknown : settings.tokens.find? token = some known)
    (hasked : Asks requested known.details asked) :
    Report.ofExcept (introspect settings ctx token tokenType requested) =
      .ofToken (settings.started.validator.validate ctx asked known.details).value := by
  obtain ⟨details, hdetails, rfl⟩ := hasked
  rw [introspect_eq hmarker hdetails, Service.introspect_started rfl hknown]
  cases (settings.started.validator.validate ctx _ known.details).value <;> rfl

theorem validate_eq (hmarker : Text.isBlank settings.service.refreshTokenType = false)
    (hrequested : readDetails "requested" requestedText = .ok asked)
    (hgranted : readDetails "granted" grantedText = .ok granted) :
    validate settings ctx requestedText grantedText =
      match (settings.started.validator.validate ctx asked granted).value with
      | .ok outcome => .ok outcome.toJson
      | .error e => .error e.message := by
  simp only [validate, configuredService_eq hmarker, hrequested, hgranted]
  rfl

theorem ofExcept_validate (hmarker : Text.isBlank settings.service.refreshTokenType = false)
    (hrequested : readDetails "requested" requestedText = .ok asked)
    (hgranted : readDetails "granted" grantedText = .ok granted) :
    Report.ofExcept (validate settings ctx requestedText grantedText) =
      .ofValidation (settings.started.validator.validate ctx asked granted).value := by
  rw [validate_eq hmarker hrequested hgranted]
  cases (settings.started.validator.validate ctx asked granted).value <;> rfl

end

theorem Invocation.tenant_context (i : Invocation) : i.context.tenant = i.tenant := by
  simp only [context]
  split <;> rfl

theorem introspect_agrees_with_validate {settings : Settings} {token : String}
    {known : AccessToken} {requested : Option String} {asked : DetailSet}
    (hmarker : Text.isBlank settings.service.refreshTokenType = false)
    (hknown : settings.tokens.find? token = some known)
    (hasked : Asks requested known.details asked) (tenant : String) :
    ∃ service report, configuredService settings = .ok service ∧
      (∀ config organization tokenType marker includeExpired, Text.isBlank marker = false →
        (Invocation.mk config tenant organization (.introspect token tokenType requested)).report
            { settings with service :=
              { settings.service with refreshTokenType := marker, includeExpired } } = report) ∧
      (∀ ctx, ctx.tenant = tenant →
        (Report.ofValidation (service.validator.validate ctx asked known.details).value).Agrees
          report) ∧
      ∀ config organization requestedText grantedText,
        readDetails "requested" requestedText = .ok asked →
        readDetails "granted" grantedText = .ok known.details →
        ((Invocation.mk config tenant organization (.validate requestedText grantedText)).report
          settings).Agrees report := by
  -- Of the context only the tenant counts, so one run stands for those in all organizations.
  have hcongr : ∀ ctx, ctx.tenant = tenant →
      settings.started.validator.validate (RequestContext.default.withTenant tenant) asked
          known.details =
        settings.started.validator.validate ctx asked known.details :=
    fun ctx htenant => Validator.validate_congr htenant.symm _ _ _
  refine ⟨settings.started, .ofToken (settings.started.validator.validate
    (RequestContext.default.withTenant tenant) asked known.details).value,
    configuredService_eq hmarker, ?_, ?_, ?_⟩
  · intro config organization tokenType marker includeExpired hmarker'
    rw [hcongr _ (Invocation.tenant_context
      ⟨config, tenant, organization, .introspect token tokenType requested⟩)]
    exact ofExcept_introspect hmarker' hknown hasked
  · intro ctx htenant
    rw [hcongr ctx htenant]
    exact Report.agrees_ofToken _
  · intro config organization requestedText grantedText hrequestedText hgrantedText
    rw [hcongr _ (Invocation.tenant_context
      ⟨config, tenant, organization, .validate requestedText grantedText⟩)]
    change (Report.ofExcept (validate settings _ requestedText grantedText)).Agrees _
    rw [ofExcept_validate hmarker hrequestedText hgrantedText]
    exact Report.agrees_ofToken _

end Command

namespace Payments

open Command (Invocation Report Asks)

def bank : Settings :=
  { Settings.default with
    rules := ⟨[rule]⟩
    catalog := .ofList [("acme", [.named "payment"])]
    tokens := .ofList [("token", { AccessToken.blank with details := granted })] }

def cancelText : String :=
  "[\x7b\"type\":\"payment\",\"actions\":[\"cancel\"]\x7d,\x7b\"type\":\"account\"\x7d]"

def grantedText : String :=
  "[\x7b\"type\":\"payment\",\"actions\":[\"status\"]\x7d,"
    ++ "\x7b\"type\":\"payment\",\"actions\":[\"initiate\",\"cancel\"]\x7d]"

def cancelAsked : DetailSet :=
  .ofList [detail ["cancel"], account]

def validateCancel : Invocation :=
  ⟨none, "acme", none, .validate cancelText grantedText⟩

def introspectCancel : Invocation :=
  ⟨none, "acme", some "org", .introspect "token" (some "refresh_token") (some cancelText)⟩

theorem introspect_agrees_with_validate_cancel :
    Text.isBlank bank.service.refreshTokenType = false ∧
      bank.tokens.find? "token" = some { AccessToken.blank with details := granted } ∧
      Asks (some cancelText) granted cancelAsked ∧
      (validateCancel.report bank).Agrees (introspectCancel.report bank) ∧
      introspectCancel.report bank =
        .printed (.record [("authorization_details", .array [(detail ["cancel"]).toJson])]) := by
  have hmarker : Text.isBlank bank.service.refreshTokenType = false := by decide
  have hknown : bank.tokens.find? "token" = some { AccessToken.blank with details := granted } :=
    rfl
  have hcancel : Command.readDetails "requested" cancelText = .ok cancelAsked := by
    conv => lhs; cbv
    rfl
  have hgranted : Command.readDetails "granted" grantedText = .ok granted := by
    conv => lhs; cbv
    rfl
  have hasked : Asks (some cancelText) granted cancelAsked := ⟨_, hcancel, rfl⟩
  obtain ⟨service, report, -, hreport, -, hvalidate⟩ :=
    Command.introspect_agrees_with_validate hmarker hknown hasked "acme"
  obtain rfl : introspectCancel.report bank = report :=
    hreport none (some "org") (some "refresh_token") "refresh_token" false hmarker
  exact ⟨hmarker, hknown, hasked, hvalidate none none _ _ hcancel hgranted,
    (Command.ofExcept_introspect hmarker hknown hasked).trans rfl⟩

end Payments

end RichAuthorization
