import RichAuthorization.Json.Decoder

/-!
What a record owes to the members it was read from.
-/

namespace RichAuthorization

theorem Except.toOption_eq_some_iff {ε α : Type} {x : Except ε α} {a : α} :
    x.toOption = some a ↔ x = .ok a := by
  cases x <;> simp [Except.toOption]

theorem Except.bind_eq_ok_iff {ε α β : Type} {x : Except ε α} {f : α → Except ε β} {b : β} :
    (x >>= f) = .ok b ↔ ∃ a, x = .ok a ∧ f a = .ok b := by
  cases x <;> simp [bind, Except.bind]

theorem Except.map_eq_ok_iff {ε α β : Type} {x : Except ε α} {f : α → β} {b : β} :
    x.map f = .ok b ↔ ∃ a, x = .ok a ∧ f a = b := by
  cases x <;> simp [Except.map]

namespace Json

namespace Document

def text? : Document → Option String
  | .string (.ok s) _ => some s
  | _ => none

def member? (name : String) : List (Document × Document) → Option Document
  | [] => none
  | (key, d) :: rest => if key.text? = some name then some d else member? name rest

end Document

namespace Decoder

theorem finish_eq_ok_iff {stop : Option Fault} {u : Unit} :
    finish stop = .ok u ↔ stop = none := by
  cases stop <;> simp [finish, fault]

theorem wrongType_ne_ok {α : Type} {expected : Expected} {d : Document} {a : α} :
    wrongType expected d ≠ .ok a := by
  simp only [wrongType]
  cases found d <;> simp [mismatch]

theorem memberName_eq_ok_iff {d : Document} {name : String} :
    memberName d = .ok name ↔ d.text? = some name := by
  cases d with
  | string read skip => cases read <;> simp [memberName, scanned, fault, Document.text?]
  | _ => simp [memberName, fault, Document.text?]

theorem string_eq_ok_iff {place : Place} {d : Document} {text : String} :
    string place d = .ok text ↔ d.text? = some text := by
  cases d with
  | string read skip => cases read <;> simp [string, scanned, fault, Document.text?]
  | _ => simp [string, wrongType_ne_ok, Document.text?]

theorem text?_of_option_string {place : Place} {d : Document} {text : Option String}
    (h : string.option place d = .ok text) : d.text? = text := by
  cases d with
  | null =>
      cases h
      rfl
  | _ =>
      simp only [option, Except.map_eq_ok_iff] at h
      obtain ⟨found, hfound, rfl⟩ := h
      exact string_eq_ok_iff.mp hfound

end Decoder

namespace Field

variable {σ α β : Type}

def Keeps (field : Field σ) (view : σ → β) : Prop :=
  ∀ place d set, field.read place d = .ok set → ∀ state, view (set state) = view state

def Sets (field : Field σ) (view : σ → β) (value : Document → β) : Prop :=
  ∀ place d set, field.read place d = .ok set → ∀ state, view (set state) = value d

variable {name : String} {decoder : Decoder α} {set : α → σ → σ} {view : σ → β}

theorem keeps_required (h : ∀ a state, view (set a state) = view state) :
    (required name decoder set).Keeps view := by
  intro place d update hread state
  obtain ⟨a, -, rfl⟩ := Except.map_eq_ok_iff.mp hread
  exact h a state

theorem sets_withDefault {value : Document → β}
    (h : ∀ place d a, decoder place d = .ok a → ∀ state, view (set a state) = value d) :
    (withDefault name decoder set).Sets view value := by
  intro place d update hread state
  obtain ⟨a, ha, rfl⟩ := Except.map_eq_ok_iff.mp hread
  exact h place d a ha state

end Field

namespace RecordFormat

variable {σ β : Type} {format : RecordFormat σ} {place : Place}

def field? (format : RecordFormat σ) (name : String) : Option (Field σ) :=
  format.fields.find? fun field => field.name = name

theorem name_of_field? {name : String} {field : Field σ} (h : format.field? name = some field) :
    field.name = name := by
  simpa using List.find?_some h

theorem readMembers_cons_eq_ok_iff {key d : Document} {rest : List (Document × Document)}
    {seen : List String} {state : σ} {result : List String × σ} :
    format.readMembers place ((key, d) :: rest) seen state = .ok result ↔
      ∃ name, key.text? = some name ∧
        ((∃ field set, format.field? name = some field ∧ name ∉ seen ∧
            field.read place d = .ok set ∧
            format.readMembers place rest (name :: seen) (set state) = .ok result) ∨
          (format.field? name = none ∧ format.closed = false ∧ d.skipFault? = none ∧
            format.readMembers place rest seen state = .ok result)) := by
  simp only [readMembers, Except.bind_eq_ok_iff, Decoder.memberName_eq_ok_iff, field?]
  refine exists_congr fun name => and_congr_right fun _ => ?_
  cases format.fields.find? fun field => field.name = name with
  | none =>
      cases format.closed with
      | true => simp [Decoder.mismatch]
      | false => simp [Except.bind_eq_ok_iff, Decoder.finish_eq_ok_iff]
  | some field =>
      by_cases hseen : name ∈ seen
      · simp [hseen, Decoder.mismatch]
      · simp [hseen, Except.bind_eq_ok_iff]

variable {view : σ → β} {name : String} {members : List (Document × Document)}
  {seen seen' : List String} {state result : σ}

-- A field that was read is not read again, so what it shows stays to the end.
theorem readMembers_of_seen
    (hkeeps : ∀ other field, format.field? other = some field → other ≠ name → field.Keeps view)
    (hseen : name ∈ seen)
    (h : format.readMembers place members seen state = .ok (seen', result)) :
    view result = view state := by
  induction members generalizing seen state with
  | nil =>
      cases h
      rfl
  | cons member rest ih =>
      obtain ⟨key, d⟩ := member
      obtain ⟨other, -, hstep⟩ := readMembers_cons_eq_ok_iff.mp h
      rcases hstep with ⟨field, set, hfield, hnew, hread, hrest⟩ | ⟨-, -, -, hrest⟩
      · have hne : other ≠ name := fun heq => hnew (heq ▸ hseen)
        rw [ih (List.mem_cons_of_mem _ hseen) hrest]
        exact hkeeps other field hfield hne place d set hread state
      · exact ih hseen hrest

-- The induction is on the members, for any names already read but the viewed one: at the member of
-- that name the value is set, and from there on it is seen.
theorem readMembers_shows (shows : Document → β → Prop) {field : Field σ}
    (hkeeps : ∀ other field, format.field? other = some field → other ≠ name → field.Keeps view)
    (hfield : format.field? name = some field)
    (hsets : ∀ d set, field.read place d = .ok set → ∀ state, shows d (view (set state)))
    (hnew : name ∉ seen)
    (h : format.readMembers place members seen state = .ok (seen', result)) :
    (Document.member? name members).elim (view result = view state) (shows · (view result)) := by
  induction members generalizing seen state with
  | nil =>
      cases h
      rfl
  | cons member rest ih =>
      obtain ⟨key, d⟩ := member
      obtain ⟨other, hkey, hstep⟩ := readMembers_cons_eq_ok_iff.mp h
      simp only [Document.member?, hkey, Option.some.injEq]
      by_cases heq : other = name
      · subst heq
        rcases hstep with ⟨found, set, hfound, -, hread, hrest⟩ | ⟨hnone, -⟩
        · rw [if_pos rfl, Option.elim_some, readMembers_of_seen hkeeps List.mem_cons_self hrest]
          obtain rfl : found = field := Option.some.inj (hfound.symm.trans hfield)
          exact hsets d set hread state
        · rw [hfield] at hnone
          cases hnone
      · rw [if_neg heq]
        rcases hstep with ⟨found, set, hfound, -, hread, hrest⟩ | ⟨-, -, -, hrest⟩
        · have hstill : name ∉ other :: seen := by simp [Ne.symm heq, hnew]
          have hview := ih hstill hrest
          rwa [hkeeps other found hfound heq place d set hread state] at hview
        · exact ih hnew hrest

theorem readMembers_view {value : Document → β} {field : Field σ}
    (hkeeps : ∀ other field, format.field? other = some field → other ≠ name → field.Keeps view)
    (hfield : format.field? name = some field) (hsets : field.Sets view value)
    (hnew : name ∉ seen)
    (h : format.readMembers place members seen state = .ok (seen', result)) :
    view result = (Document.member? name members).elim (view state) value := by
  have hshows := readMembers_shows (fun d b => b = value d) hkeeps hfield (hsets place) hnew h
  cases hmember : Document.member? name members with
  | none => simpa [hmember] using hshows
  | some d => simpa [hmember] using hshows

section

variable {stop : Option Fault} {fields before after : List (Field σ)} {field : Field σ}
  {index : Nat} {d : Document} {items surplus : List Document}

theorem readItems_cons_eq_ok_iff {result : List Document × σ} :
    format.readItems place stop (field :: fields) index (d :: items) state = .ok result ↔
      ∃ set, field.read place d = .ok set ∧
        format.readItems place stop fields (index + 1) items (set state) = .ok result := by
  simp only [readItems, Except.bind_eq_ok_iff]

theorem readItems_nil_eq_ok_iff {result : List Document × σ} :
    format.readItems place stop (field :: fields) index [] state = .ok result ↔
      stop = none ∧ field.defaulted = true ∧
        format.readItems place stop fields (index + 1) [] state = .ok result := by
  simp only [readItems, Except.bind_eq_ok_iff, Decoder.finish_eq_ok_iff]
  cases field.defaulted <;> simp [Decoder.mismatch]

theorem readItems_keeps (hkeeps : ∀ field ∈ fields, field.Keeps view)
    (h : format.readItems place stop fields index items state = .ok (surplus, result)) :
    view result = view state := by
  induction fields generalizing index items state with
  | nil =>
      simp only [readItems, Except.ok.injEq, Prod.mk.injEq] at h
      rw [h.2]
  | cons field rest ih =>
      obtain ⟨hfield, hrest⟩ := List.forall_mem_cons.mp hkeeps
      cases items with
      | nil => exact ih hrest (readItems_nil_eq_ok_iff.mp h).2.2
      | cons d items =>
          obtain ⟨set, hread, hlater⟩ := readItems_cons_eq_ok_iff.mp h
          rw [ih hrest hlater, hfield place d set hread state]

theorem readItems_view {value : Document → β} (hbefore : ∀ field ∈ before, field.Keeps view)
    (hsets : field.Sets view value) (hafter : ∀ field ∈ after, field.Keeps view)
    (h : format.readItems place stop (before ++ field :: after) index items state =
      .ok (surplus, result)) :
    view result = items[before.length]?.elim (view state) value := by
  induction before generalizing index items state with
  | nil =>
      cases items with
      | nil => exact readItems_keeps hafter (readItems_nil_eq_ok_iff.mp h).2.2
      | cons d items =>
          obtain ⟨set, hread, hlater⟩ := readItems_cons_eq_ok_iff.mp h
          rw [readItems_keeps hafter hlater]
          exact hsets place d set hread state
  | cons first rest ih =>
      obtain ⟨hfirst, hrest⟩ := List.forall_mem_cons.mp hbefore
      cases items with
      | nil => simpa using ih hrest (readItems_nil_eq_ok_iff.mp h).2.2
      | cons d items =>
          obtain ⟨set, hread, hlater⟩ := readItems_cons_eq_ok_iff.mp h
          rw [ih hrest hlater, hfirst place d set hread state]
          simp

end

theorem decode_object_eq_ok_iff {stop : Option Fault} :
    format.decode place (.object members stop) = .ok result ↔
      ∃ inner seen, place.enter = .ok inner ∧
        format.readMembers inner members [] format.initial = .ok (seen, result) ∧
        stop = none ∧ format.firstMissing? seen = none := by
  simp only [decode, Except.bind_eq_ok_iff, Decoder.finish_eq_ok_iff]
  constructor
  · rintro ⟨inner, henter, ⟨seen, found⟩, hread, -, hstop, hresult⟩
    split at hresult
    · cases hresult
    · next hmissing =>
      cases hresult
      exact ⟨inner, seen, henter, hread, hstop, hmissing⟩
  · rintro ⟨inner, seen, henter, hread, hstop, hmissing⟩
    exact ⟨inner, henter, (seen, result), hread, (), hstop, by rw [hmissing]; rfl⟩

theorem exists_readItems_of_decode {items : List Document} {stop : Option Fault}
    (h : format.decode place (.array items stop) = .ok result) :
    ∃ inner surplus, format.readItems inner stop format.fields 0 items format.initial =
      .ok (surplus, result) := by
  simp only [decode, Except.bind_eq_ok_iff] at h
  obtain ⟨inner, -, ⟨surplus, found⟩, hread, hresult⟩ := h
  suffices hfound : found = result from ⟨inner, surplus, hfound ▸ hread⟩
  split at hresult
  · obtain ⟨-, -, heq⟩ := Except.bind_eq_ok_iff.mp hresult
    exact Except.ok.inj heq
  · split at hresult
    · cases hresult
    · cases hresult
    · exact Except.ok.inj hresult

theorem record_of_decode {d : Document} (h : format.decode place d = .ok result) :
    (∃ members stop, d = .object members stop) ∨ ∃ items stop, d = .array items stop := by
  cases d with
  | object members stop => exact .inl ⟨members, stop, rfl⟩
  | array items stop => exact .inr ⟨items, stop, rfl⟩
  | _ =>
      simp only [decode] at h
      exact absurd h Decoder.wrongType_ne_ok

end RecordFormat

end Json

end RichAuthorization
