import Mathlib.Data.Finset.Card
import RichAuthorization.Proofs.Introspection
import RichAuthorization.Proofs.Named
import RichAuthorization.Registration

/-!
A registry is what was registered last.
-/

namespace RichAuthorization

def accepted (offered : List Processor) : List Processor :=
  offered.filter fun p => !Text.isBlank p.type

def latest? (offered : List Processor) (type : String) : Option Processor :=
  ((accepted offered).filter fun p => p.type = type).getLast?

namespace Registration

def processors : Registration → List Processor
  | .single p => [p]
  | .discovered processors => processors
  | .configured s => s.rules.map TypeRule.processor

def answer : Registration → Answer
  | .single p => .accepted (!Text.isBlank p.type)
  | .discovered processors => .count (accepted processors).length
  | .configured s => .count (accepted (s.rules.map TypeRule.processor)).length

end Registration

def offered (first : List Processor) (registrations : List Registration) : List Processor :=
  first ++ registrations.flatMap Registration.processors

theorem length_accepted_cons (p : Processor) (rest : List Processor) :
    (accepted (p :: rest)).length =
      if Text.isBlank p.type = false then (accepted rest).length + 1
      else (accepted rest).length := by
  cases hblank : Text.isBlank p.type <;> simp [accepted, hblank]

theorem latest?_append (earlier later : List Processor) (type : String) :
    latest? (earlier ++ later) type = (latest? later type).or (latest? earlier type) := by
  simp only [latest?, accepted, List.filter_append, List.getLast?_append]

theorem latest?_cons (p : Processor) (rest : List Processor) (type : String) :
    latest? (p :: rest) type = (latest? rest type).or (latest? [p] type) :=
  latest?_append [p] rest type

theorem latest?_singleton (p : Processor) (type : String) :
    latest? [p] type =
      if Text.isBlank p.type = false ∧ p.type = type then some p else none := by
  cases hblank : Text.isBlank p.type with
  | true => simp [latest?, accepted, hblank]
  | false =>
      simp only [latest?, accepted, hblank, List.filter_cons, List.filter_nil]
      by_cases heq : p.type = type <;> simp [heq]

theorem latest?_eq_none_of_blank {type : String} (h : Text.isBlank type = true)
    (processors : List Processor) : latest? processors type = none := by
  rw [latest?, List.getLast?_eq_none_iff, List.filter_eq_nil_iff]
  intro p hp heq
  have hp := (List.mem_filter.mp hp).2
  rw [of_decide_eq_true heq, h] at hp
  cases hp

theorem isSome_latest?_iff {processors : List Processor} {type : String} :
    (latest? processors type).isSome = true ↔ type ∈ (accepted processors).map Processor.type := by
  simp [latest?]

namespace Registry

theorem fst_register (r : Registry) (p : Processor) :
    (r.register p).value.1 = !Text.isBlank p.type := by
  cases hblank : Text.isBlank p.type with
  | true => rw [register_value_of_blank r hblank, Bool.not_true]
  | false => rw [register_value_of_not_blank r hblank, Bool.not_false]

theorem find?_register (r : Registry) (p : Processor) (type : String) :
    (r.register p).value.2.find? type = (latest? [p] type).or (r.find? type) := by
  rw [latest?_singleton]
  cases hblank : Text.isBlank p.type with
  | true => simp [register_value_of_blank r hblank]
  | false =>
      rw [register_value_of_not_blank r hblank]
      by_cases heq : p.type = type
      · subst heq
        simp [find?_insert_self]
      · simp [heq, find?_insert_of_ne]

theorem value_registerAll_cons (r : Registry) (p : Processor) (rest : List Processor) :
    (r.registerAll (p :: rest)).value = ((r.register p).value.2.registerAll rest).value := rfl

theorem value_registerAll_append (r : Registry) (earlier later : List Processor) :
    (r.registerAll (earlier ++ later)).value =
      ((r.registerAll earlier).value.registerAll later).value := by
  induction earlier generalizing r with
  | nil => rfl
  | cons p rest ih =>
      rw [List.cons_append, value_registerAll_cons, ih, value_registerAll_cons]

-- The induction is on the processors: each of them takes the place of what was there for its type.
theorem find?_registerAll (r : Registry) (processors : List Processor) (type : String) :
    (r.registerAll processors).value.find? type =
      (latest? processors type).or (r.find? type) := by
  induction processors generalizing r with
  | nil => rfl
  | cons p rest ih =>
      rw [value_registerAll_cons, ih, find?_register, latest?_cons p rest, Option.or_assoc]

theorem value_registerDiscovered (r : Registry) (processors : List Processor) :
    (r.registerDiscovered processors).value =
      ((accepted processors).length, (r.registerAll processors).value) := by
  induction processors generalizing r with
  | nil => rfl
  | cons p rest ih =>
      -- A log line depends on the answer, and the value does not depend on the line.
      cases hblank : Text.isBlank p.type <;>
        simp [registerDiscovered, fst_register, hblank, length_accepted_cons,
          value_registerAll_cons, ih]

theorem value_registerRules (r : Registry) (rules : List TypeRule) :
    (r.registerRules rules).value =
      ((accepted (rules.map TypeRule.processor)).length,
        (r.registerAll (rules.map TypeRule.processor)).value) := by
  induction rules generalizing r with
  | nil => rfl
  | cons rule rest ih =>
      cases hblank : Text.isBlank rule.processor.type <;>
        simp [registerRules, fst_register, hblank, length_accepted_cons,
          value_registerAll_cons, ih]

theorem value_perform (r : Registry) (registration : Registration) :
    (r.perform registration).value =
      (registration.answer, (r.registerAll registration.processors).value) := by
  cases registration with
  | single p =>
      simp [perform, Registration.answer, Registration.processors, registerAll, fst_register]
  | discovered processors =>
      simp [perform, Registration.answer, Registration.processors, value_registerDiscovered]
  | configured s =>
      simp [perform, Registration.answer, Registration.processors, registerStatic,
        value_registerRules]

theorem value_performAll (r : Registry) (registrations : List Registration) :
    (r.performAll registrations).value =
      (registrations.map Registration.answer,
        (r.registerAll (registrations.flatMap Registration.processors)).value) := by
  induction registrations generalizing r with
  | nil => rfl
  | cons registration rest ih =>
      rw [List.map_cons, List.flatMap_cons, value_registerAll_append]
      simp [performAll, value_perform, ih]

structure Holds (r : Registry) (processors : List Processor) : Prop where
  find?_eq : ∀ type, r.find? type = latest? processors type
  find?_blank : ∀ type, Text.isBlank type = true → r.find? type = none
  keyed : ∀ entry ∈ r.processors.entries, entry.2.type = entry.1
  size_eq : r.size = ((accepted processors).map Processor.type).toFinset.card
  increasing : r.types.Pairwise (· < ·)
  mem_types : ∀ type, type ∈ r.types ↔ type ∈ (accepted processors).map Processor.type

theorem holds_of_find?_eq {r : Registry} {processors : List Processor}
    (h : ∀ type, r.find? type = latest? processors type) : r.Holds processors := by
  have hmem : ∀ type, type ∈ r.types ↔ type ∈ (accepted processors).map Processor.type := by
    intro type
    rw [← isSome_latest?_iff, ← h type]
    exact Named.isSome_find?_iff.symm
  have hsorted := r.processors.sorted
  refine ⟨h, ?_, fun entry hentry => (r.keyed entry hentry).1, ?_, hsorted.names, hmem⟩
  · intro type hblank
    rw [h type, latest?_eq_none_of_blank hblank]
  · have hnodup : r.types.Nodup := hsorted.nodup_names
    have htypes : r.types.toFinset = ((accepted processors).map Processor.type).toFinset := by
      ext type
      rw [List.mem_toFinset, List.mem_toFinset, hmem]
    rw [← htypes, List.toFinset_card_of_nodup hnodup]
    exact (List.length_map Prod.fst).symm

theorem holds_registerAll {r : Registry} {earlier : List Processor} (h : r.Holds earlier)
    (later : List Processor) : (r.registerAll later).value.Holds (earlier ++ later) := by
  apply holds_of_find?_eq
  intro type
  rw [find?_registerAll, h.find?_eq, latest?_append]

theorem holds_empty : empty.Holds [] :=
  holds_of_find?_eq fun _ => rfl

theorem holds_ofList (processors : List Processor) : (ofList processors).value.Holds processors :=
  holds_registerAll holds_empty processors

theorem eq_of_find?_eq {r r' : Registry} (h : ∀ type, r.find? type = r'.find? type) : r = r' := by
  obtain ⟨processors, keyed⟩ := r
  obtain ⟨processors', keyed'⟩ := r'
  obtain rfl : processors = processors' := NameMap.ext_find? h
  rfl

theorem Holds.eq_of_latest?_eq {r r' : Registry} {processors processors' : List Processor}
    (h : r.Holds processors) (h' : r'.Holds processors')
    (hlatest : ∀ type, latest? processors type = latest? processors' type) : r = r' := by
  apply eq_of_find?_eq
  intro type
  rw [h.find?_eq, hlatest, h'.find?_eq]

structure AnswersAs (r r' : Registry) : Prop where
  find?_eq : ∀ type, r.find? type = r'.find? type
  size_eq : r.size = r'.size
  types_eq : r.types = r'.types
  supportedTypes_eq : ∀ catalog ctx, r.supportedTypes catalog ctx = r'.supportedTypes catalog ctx
  validate_eq : ∀ catalog required ctx requested granted,
    (Validator.mk r catalog required).validate ctx requested granted =
      (Validator.mk r' catalog required).validate ctx requested granted

theorem AnswersAs.refl (r : Registry) : r.AnswersAs r :=
  ⟨fun _ => rfl, rfl, rfl, fun _ _ => rfl, fun _ _ _ _ _ => rfl⟩

def reached (first : List Processor) (registrations : List Registration) : Registry :=
  ((ofList first).value.performAll registrations).value.2

theorem reached_eq_registerAll (first : List Processor) (registrations : List Registration) :
    reached first registrations = (empty.registerAll (offered first registrations)).value := by
  rw [reached, value_performAll, offered, value_registerAll_append]
  rfl

theorem holds_reached (first : List Processor) (registrations : List Registration) :
    (reached first registrations).Holds (offered first registrations) := by
  rw [reached_eq_registerAll]
  exact holds_ofList (offered first registrations)

end Registry

namespace Service

theorem start_value {settings : ServiceSettings}
    (h : Text.isBlank settings.refreshTokenType = false) (r : Registry)
    (discovered : List Processor) (catalog : Catalog) (tokens : TokenStore) :
    (start settings r discovered catalog tokens).value =
      .ok ⟨settings, (r.registerAll discovered).value, catalog, tokens⟩ := by
  simp [start, h, Registry.value_registerDiscovered]

theorem value_performAll (s : Service) (registrations : List Registration) :
    (s.performAll registrations).value =
      (registrations.map Registration.answer,
        { s with registry :=
            (s.registry.registerAll (registrations.flatMap Registration.processors)).value }) := by
  simp [performAll, Registry.value_performAll]

end Service

namespace Registry

theorem reached_append_discovered (first : List Processor) (registrations : List Registration)
    (discovered : List Processor) (later : List Registration) :
    reached first (registrations ++ .discovered discovered :: later) =
      (((reached first registrations).registerAll discovered).value.registerAll
        (later.flatMap Registration.processors)).value := by
  simp only [reached_eq_registerAll, ← value_registerAll_append, offered, List.flatMap_append,
    List.flatMap_cons, Registration.processors, List.append_assoc]

theorem last_registration_wins (first : List Processor) (registrations : List Registration) :
    ((ofList first).value.performAll registrations).value.1 =
        registrations.map Registration.answer ∧
      (reached first registrations).Holds (offered first registrations) ∧
      (∀ first' registrations',
        (∀ type, latest? (offered first registrations) type =
          latest? (offered first' registrations') type) →
        (reached first registrations).AnswersAs (reached first' registrations')) ∧
      ∀ settings discovered catalog tokens later,
        Text.isBlank settings.refreshTokenType = false →
        ∃ service, (Service.start settings (reached first registrations) discovered catalog
            tokens).value = .ok service ∧
          (service.performAll later).value.1 = later.map Registration.answer ∧
          (service.performAll later).value.2.validator =
            ⟨reached first (registrations ++ .discovered discovered :: later), catalog,
              settings.catalogRequired⟩ := by
  refine ⟨by rw [value_performAll], holds_reached first registrations, ?_, ?_⟩
  · intro first' registrations' hlatest
    have heq := (holds_reached first registrations).eq_of_latest?_eq
      (holds_reached first' registrations') hlatest
    rw [heq]
    exact .refl _
  · intro settings discovered catalog tokens later hmarked
    refine ⟨_, Service.start_value hmarked _ discovered catalog tokens, ?_, ?_⟩
    · rw [Service.value_performAll]
    · rw [Service.value_performAll, Service.validator, reached_append_discovered]

end Registry

namespace Payments

def loosePayment : Processor :=
  (TypeRule.strict "payment" .typeOnly).processor

def accountProcessor : Processor :=
  (TypeRule.strict "account" .typeOnly).processor

def replacing : List Registration :=
  [.single accountProcessor, .configured ⟨[rule, .strict " " .structural]⟩]

def otherOrder : List Registration :=
  [.configured ⟨[rule]⟩, .discovered [accountProcessor]]

theorem latest?_replacing (type : String) :
    latest? (offered [loosePayment] replacing) type = latest? (offered [] otherOrder) type := by
  have hreplacing : accepted (offered [loosePayment] replacing) =
      [loosePayment, accountProcessor, rule.processor] := rfl
  have hother : accepted (offered [] otherOrder) = [rule.processor, accountProcessor] := rfl
  have hloose : loosePayment.type = "payment" := rfl
  have haccount : accountProcessor.type = "account" := rfl
  have hrule : rule.processor.type = "payment" := rfl
  rw [latest?, latest?, hreplacing, hother]
  by_cases hpayment : "payment" = type
  · subst hpayment
    simp [hloose, haccount, hrule]
  · simp [hloose, haccount, hrule, hpayment]

theorem registered_in_other_order :
    (Registry.reached [loosePayment] replacing).types = ["account", "payment"] ∧
      (Registry.reached [loosePayment] replacing).AnswersAs (Registry.reached [] otherOrder) ∧
      Text.isBlank ServiceSettings.default.refreshTokenType = false ∧
      ∃ service, (Service.start .default (Registry.reached [loosePayment] replacing) []
          catalog tokens).value = .ok service ∧
        (service.performAll [.discovered [loosePayment]]).value.1 = [.count 1] ∧
        (service.performAll [.discovered [loosePayment]]).value.2.validator =
          ⟨Registry.reached [loosePayment]
              (replacing ++ [.discovered [], .discovered [loosePayment]]), catalog, true⟩ := by
  obtain ⟨-, -, halike, hservice⟩ := Registry.last_registration_wins [loosePayment] replacing
  have hmarked : Text.isBlank ServiceSettings.default.refreshTokenType = false := by decide
  exact ⟨rfl, halike [] otherOrder latest?_replacing, hmarked,
    hservice .default [] catalog tokens [.discovered [loosePayment]] hmarked⟩

end Payments

end RichAuthorization
