import RichAuthorization.Command.Run

/-!
What the settings alone make of the tool: a service, and applications that nothing is known of but
their records. A run of the tool answers its arguments under the settings that its surroundings
hold.
-/

namespace RichAuthorization

namespace Settings

def LastRecord (s : Settings) (clientId : String) (app : Client.Application) : Prop :=
  ∃ earlier later, s.applications = earlier ++ app :: later ∧ app.clientId = clientId ∧
    ∀ other ∈ later, other.clientId ≠ clientId

variable {s : Settings} {clientId tenant : String} {app : Client.Application}

theorem find?_reverse_applications_eq_some_iff :
    (s.applications.reverse.find? fun app => app.clientId = clientId) = some app ↔
      s.LastRecord clientId app := by
  rw [List.find?_eq_some_iff_append]
  constructor
  · rintro ⟨hclient, later, earlier, hsplit, hlater⟩
    refine ⟨earlier.reverse, later.reverse, ?_, by simpa using hclient, ?_⟩
    · simpa using congrArg List.reverse hsplit
    · intro other hother
      simpa using hlater other (List.mem_reverse.mp hother)
  · rintro ⟨earlier, later, hsplit, hclient, hlater⟩
    refine ⟨by simpa using hclient, later.reverse, earlier.reverse, by simp [hsplit], ?_⟩
    intro other hother
    simpa using hlater other (List.mem_reverse.mp hother)

theorem find_configuredApplications_eq_ok_iff :
    s.configuredApplications.find clientId tenant = .ok app ↔ s.LastRecord clientId app := by
  rw [← find?_reverse_applications_eq_some_iff]
  simp only [configuredApplications]
  cases s.applications.reverse.find? fun app => app.clientId = clientId <;> simp

def opened (s : Settings) : Client.Gate :=
  ⟨s.gate, s.configuredApplications, configuredManagement⟩

theorem startGate_value (s : Settings) : s.startGate.value = s.opened := by
  simp only [startGate, Client.Gate.start, Traced.bind_value]
  split <;> rfl

def started (s : Settings) : Service :=
  ⟨s.service, (Registry.empty.registerStatic s.rules).value.2, s.configuredCatalog,
    s.configuredTokens⟩

theorem startService_value (h : Text.isBlank s.service.refreshTokenType = false) :
    (s.startService .empty []).value =
      .ok ((Registry.empty.registerStatic s.rules).value.1, s.started) := by
  simp [startService, Service.start, h, Registry.registerDiscovered, started]

end Settings

namespace Command

open Settings (Surroundings)

theorem configuredService_eq {settings : Settings}
    (h : Text.isBlank settings.service.refreshTokenType = false) :
    configuredService settings = .ok settings.started := by
  simp only [configuredService, Settings.startService_value h]

def Invocation.report (i : Invocation) (settings : Settings) : Report :=
  .ofExcept (answer settings i.context i.request)

theorem run_eq_report {surroundings : Surroundings} {args : List String} {i : Invocation}
    {settings : Settings} (hread : readArguments args = .ok i)
    (hload : Settings.load surroundings i.config = .ok settings) :
    run surroundings args = i.report settings := by
  simp only [run, hread, hload, Invocation.report]

end Command

end RichAuthorization
