import Mathlib.Data.List.Nodup
import RichAuthorization.Proofs.Reading

/-!
Records that are read from objects, member by member.
-/

namespace RichAuthorization.Json

namespace Document

theorem member?_ofMembers (name : String) (members : List (String × Tree)) :
    member? name (ofMembers members) = (Named.find? name members).map ofTree := by
  induction members with
  | nil => rfl
  | cons member rest ih =>
      obtain ⟨n, t⟩ := member
      simp only [ofMembers, member?, text?, Option.some.injEq, Named.find?, ih]
      split <;> rfl

mutual

theorem skipFault?_ofTree : (t : Tree) → (ofTree t).skipFault? = none
  | .null => rfl
  | .bool _ => rfl
  | .number _ => rfl
  | .string _ => rfl
  | .array items => by simp [ofTree, skipFault?, itemsSkipFault?_ofItems items]
  | .object members => by simp [ofTree, skipFault?, membersSkipFault?_ofMembers members]

theorem itemsSkipFault?_ofItems : (items : List Tree) → itemsSkipFault? (ofItems items) = none
  | [] => rfl
  | t :: rest => by
      simp [ofItems, itemsSkipFault?, skipFault?_ofTree t, itemsSkipFault?_ofItems rest]

theorem membersSkipFault?_ofMembers : (members : List (String × Tree)) →
    membersSkipFault? (ofMembers members) = none
  | [] => rfl
  | (_, t) :: rest => by
      simp [ofMembers, membersSkipFault?, skipFault?_ofTree t, membersSkipFault?_ofMembers rest]

end

end Document

structure Slot (σ : Type) where
  {α : Type}
  name : String
  decoder : Decoder α
  set : α → σ → σ
  view : σ → α
  default? : Option α

namespace Slot

variable {σ : Type}

def field (slot : Slot σ) : Field σ :=
  match slot.default? with
  | some _ => .withDefault slot.name slot.decoder slot.set
  | none => .required slot.name slot.decoder slot.set

theorem field_name (slot : Slot σ) : slot.field.name = slot.name := by
  simp only [field]
  split <;> rfl

theorem field_read_eq_ok_iff {slot : Slot σ} {place : Place} {d : Document} {set : σ → σ} :
    slot.field.read place d = .ok set ↔
      ∃ a, slot.decoder place d = .ok a ∧ slot.set a = set := by
  simp only [field]
  split <;> exact Except.map_eq_ok_iff

theorem field_optional (slot : Slot σ) : slot.field.optional = slot.default?.isSome := by
  cases h : slot.default? <;> simp [field, h, Field.required, Field.withDefault]

def Gives (slot : Slot σ) (place : Place) (o : Object) (record : σ) : Prop :=
  o.Gives slot.name (slot.decoder.Reads place) slot.default? (slot.view record)

end Slot

namespace RecordFormat

variable {σ : Type} {format : RecordFormat σ}

/-- The format has the slots for its fields, in this order, and nothing but what they show. -/
structure HasSlots (format : RecordFormat σ) (slots : List (Slot σ)) : Prop where
  fields : format.fields = slots.map Slot.field := by rfl
  distinct : (slots.map Slot.name).Nodup := by decide
  initial : ∀ slot ∈ slots, ∀ a, slot.default? = some a → slot.view format.initial = a
  set_self : ∀ slot ∈ slots, ∀ a record, slot.view (slot.set a record) = a
  set_other : ∀ slot ∈ slots, ∀ other ∈ slots, other.name ≠ slot.name → ∀ a record,
    slot.view (other.set a record) = slot.view record
  ext : ∀ record record', (∀ slot ∈ slots, slot.view record = slot.view record') →
    record = record'

variable {slots : List (Slot σ)}

namespace HasSlots

theorem field?_eq_some_iff (h : format.HasSlots slots) {name : String} {field : Field σ} :
    format.field? name = some field ↔ ∃ slot ∈ slots, slot.name = name ∧ slot.field = field := by
  have hfind : format.field? name =
      (slots.find? fun slot => slot.name = name).map Slot.field := by
    simp only [field?, h.fields, List.find?_map, Function.comp_def, Slot.field_name]
  rw [hfind, Option.map_eq_some_iff]
  constructor
  · rintro ⟨slot, hslot, rfl⟩
    exact ⟨slot, List.mem_of_find?_eq_some hslot, by simpa using List.find?_some hslot, rfl⟩
  · rintro ⟨slot, hslot, rfl, rfl⟩
    cases hfound : slots.find? fun other => other.name = slot.name with
    | none => exact absurd (List.find?_eq_none.mp hfound slot hslot) (by simp)
    | some other =>
        have hname : other.name = slot.name := by simpa using List.find?_some hfound
        have hother := List.mem_of_find?_eq_some hfound
        obtain rfl := List.inj_on_of_nodup_map h.distinct hother hslot hname
        exact ⟨other, rfl, rfl⟩

theorem isSome_field?_iff (h : format.HasSlots slots) {name : String} :
    (format.field? name).isSome = true ↔ name ∈ slots.map Slot.name := by
  rw [Option.isSome_iff_exists, List.mem_map]
  constructor
  · rintro ⟨field, hfield⟩
    obtain ⟨slot, hslot, hname, -⟩ := h.field?_eq_some_iff.mp hfield
    exact ⟨slot, hslot, hname⟩
  · rintro ⟨slot, hslot, hname⟩
    exact ⟨slot.field, h.field?_eq_some_iff.mpr ⟨slot, hslot, hname, rfl⟩⟩

end HasSlots

variable {place : Place} {members : List (String × Tree)} {seen seen' : List String}
  {state result : σ}

theorem readMembers_ofMembers_cons {name : String} {t : Tree} {rest : List (String × Tree)}
    {found : List String × σ} :
    format.readMembers place (Document.ofMembers ((name, t) :: rest)) seen state = .ok found ↔
      (∃ field set, format.field? name = some field ∧ name ∉ seen ∧
        field.read place (Document.ofTree t) = .ok set ∧
        format.readMembers place (Document.ofMembers rest) (name :: seen) (set state) =
          .ok found) ∨
      (format.field? name = none ∧ format.closed = false ∧
        format.readMembers place (Document.ofMembers rest) seen state = .ok found) := by
  rw [Document.ofMembers, readMembers_cons_eq_ok_iff]
  simp [Document.text?, Document.skipFault?_ofTree]

theorem mem_seen_iff
    (h : format.readMembers place (Document.ofMembers members) seen state = .ok (seen', result))
    {name : String} :
    name ∈ seen' ↔
      name ∈ seen ∨ name ∈ members.map Prod.fst ∧ (format.field? name).isSome = true := by
  induction members generalizing seen state with
  | nil =>
      cases h
      simp
  | cons member rest ih =>
      obtain ⟨n, t⟩ := member
      rcases readMembers_ofMembers_cons.mp h with
        ⟨field, set, hfield, -, -, hrest⟩ | ⟨hnone, -, hrest⟩
      · rw [ih hrest, List.mem_cons, List.map_cons, List.mem_cons]
        by_cases hname : name = n
        · simp [hname, hfield]
        · simp [hname]
      · rw [ih hrest, List.map_cons, List.mem_cons]
        by_cases hname : name = n
        · simp [hname, hnone]
        · simp [hname]

theorem isSome_field?_of_closed (hclosed : format.closed = true)
    (h : format.readMembers place (Document.ofMembers members) seen state = .ok (seen', result)) :
    ∀ member ∈ members, (format.field? member.1).isSome = true := by
  induction members generalizing seen state with
  | nil => exact List.forall_mem_nil _
  | cons member rest ih =>
      obtain ⟨name, t⟩ := member
      rcases readMembers_ofMembers_cons.mp h with ⟨field, set, hfield, -, -, hrest⟩ | ⟨-, hopen, -⟩
      · exact List.forall_mem_cons.mpr ⟨by simp [hfield], ih hrest⟩
      · rw [hclosed] at hopen
        cases hopen

def Accepts (format : RecordFormat σ) (place : Place) (member : String × Tree) : Prop :=
  match format.field? member.1 with
  | some field => ∃ set, field.read place (Document.ofTree member.2) = .ok set
  | none => format.closed = false

theorem exists_readMembers (hnames : (members.map Prod.fst).Nodup)
    (hnew : ∀ member ∈ members, member.1 ∉ seen)
    (haccept : ∀ member ∈ members, format.Accepts place member) (state : σ) :
    ∃ seen' result,
      format.readMembers place (Document.ofMembers members) seen state = .ok (seen', result) := by
  induction members generalizing seen state with
  | nil => exact ⟨seen, state, rfl⟩
  | cons member rest ih =>
      obtain ⟨name, t⟩ := member
      obtain ⟨hname, hdistinct⟩ := List.nodup_cons.mp hnames
      obtain ⟨hhead, hlater⟩ := List.forall_mem_cons.mp hnew
      obtain ⟨hmember, hrest⟩ := List.forall_mem_cons.mp haccept
      simp only [Accepts] at hmember
      cases hfield : format.field? name with
      | none =>
          rw [hfield] at hmember
          obtain ⟨seen', result, hread⟩ := ih hdistinct hlater hrest state
          exact ⟨seen', result, readMembers_ofMembers_cons.mpr (.inr ⟨hfield, hmember, hread⟩)⟩
      | some field =>
          rw [hfield] at hmember
          obtain ⟨set, hset⟩ := hmember
          have hstill : ∀ other ∈ rest, other.1 ∉ name :: seen := by
            intro other hother
            have hmem : other.1 ∈ rest.map Prod.fst := List.mem_map_of_mem hother
            rw [List.mem_cons, not_or]
            exact ⟨fun heq => hname (heq ▸ hmem), hlater other hother⟩
          obtain ⟨seen', result, hread⟩ := ih hdistinct hstill hrest (set state)
          exact ⟨seen', result,
            readMembers_ofMembers_cons.mpr (.inl ⟨field, set, hfield, hhead, hset, hread⟩)⟩

theorem firstMissing?_eq_none_iff :
    format.firstMissing? seen = none ↔
      ∀ field ∈ format.fields, field.optional = false → field.name ∈ seen := by
  simp [firstMissing?]

variable {o : Object}

theorem HasSlots.keeps_view (h : format.HasSlots slots) {slot : Slot σ} (hslot : slot ∈ slots)
    {name : String} {field : Field σ} (hfield : format.field? name = some field)
    (hne : name ≠ slot.name) : field.Keeps slot.view := by
  intro place d set hset record
  obtain ⟨other, hother, rfl, rfl⟩ := h.field?_eq_some_iff.mp hfield
  obtain ⟨a, -, rfl⟩ := Slot.field_read_eq_ok_iff.mp hset
  exact h.set_other slot hslot other hother hne a record

theorem HasSlots.decoder_of_field_read (h : format.HasSlots slots) {slot : Slot σ}
    (hslot : slot ∈ slots) {d : Document} {set : σ → σ} (hset : slot.field.read place d = .ok set)
    (record : σ) : slot.decoder place d = .ok (slot.view (set record)) := by
  obtain ⟨a, ha, rfl⟩ := Slot.field_read_eq_ok_iff.mp hset
  rw [ha, h.set_self slot hslot]

-- A slot without a default was seen, or else it would be missing.
theorem HasSlots.isSome_find?_of_required (h : format.HasSlots slots)
    (hread : format.readMembers place (Document.ofMembers o.members) [] format.initial =
      .ok (seen, result))
    (hmissing : format.firstMissing? seen = none) {slot : Slot σ} (hslot : slot ∈ slots)
    (hrequired : slot.default? = none) : (o.find? slot.name).isSome = true := by
  have hoptional : slot.field.optional = false := by
    rw [Slot.field_optional, hrequired]
    rfl
  have hmem : slot.field ∈ format.fields := h.fields ▸ List.mem_map_of_mem hslot
  have hseen := firstMissing?_eq_none_iff.mp hmissing _ hmem hoptional
  rw [Slot.field_name, mem_seen_iff hread] at hseen
  exact Object.isSome_find?_iff.mpr (hseen.resolve_left List.not_mem_nil).1

theorem HasSlots.gives_of_readMembers (h : format.HasSlots slots)
    (hread : format.readMembers place (Document.ofMembers o.members) [] format.initial =
      .ok (seen, result))
    (hmissing : format.firstMissing? seen = none) {slot : Slot σ} (hslot : slot ∈ slots) :
    slot.Gives place o result := by
  have hfield := h.field?_eq_some_iff.mpr ⟨slot, hslot, rfl, rfl⟩
  have hshows := readMembers_shows (fun d a => slot.decoder place d = .ok a)
    (fun _ _ => h.keeps_view hslot) hfield (fun _ _ => h.decoder_of_field_read hslot)
    List.not_mem_nil hread
  rw [Document.member?_ofMembers] at hshows
  cases hfind : o.find? slot.name with
  | some v =>
      rw [Object.find?_eq_some_iff.mp hfind] at hshows
      exact (Object.gives_of_find? hfind).mpr hshows
  | none =>
      rw [Object.find?_eq_none_iff.mp hfind] at hshows
      refine (Object.gives_of_missing hfind).mpr ?_
      cases hdefault : slot.default? with
      | some a => rw [← h.initial slot hslot a hdefault, hshows]
      | none =>
          have hfound := h.isSome_find?_of_required hread hmissing hslot hdefault
          rw [hfind] at hfound
          cases hfound

theorem HasSlots.accepts_of_gives (h : format.HasSlots slots)
    (hknown : format.closed = true → o.OnlyHas (slots.map Slot.name))
    (hgives : ∀ slot ∈ slots, slot.Gives place o result) :
    ∀ member ∈ o.members, format.Accepts place member := by
  intro member hmember
  have hfind := Object.find?_of_mem hmember
  have hcanonical := Tree.membersCanonical_iff.mp o.canonical.2 member hmember
  simp only [Accepts]
  cases hfield : format.field? member.1 with
  | some field =>
      obtain ⟨slot, hslot, hname, rfl⟩ := h.field?_eq_some_iff.mp hfield
      have hread := (Object.gives_of_find? (hname ▸ hfind)).mp (hgives slot hslot)
      rw [Decoder.Reads, tree_ofTree hcanonical] at hread
      exact ⟨_, Slot.field_read_eq_ok_iff.mpr ⟨_, hread, rfl⟩⟩
  | none =>
      refine Bool.eq_false_iff.mpr fun hclosed => ?_
      have hmem := hknown hclosed member.1 (by rw [hfind]; rfl)
      have hsome := h.isSome_field?_iff.mpr hmem
      rw [hfield] at hsome
      cases hsome

theorem HasSlots.firstMissing?_of_gives (h : format.HasSlots slots)
    (hgives : ∀ slot ∈ slots, slot.Gives place o result)
    (hseen : ∀ name, name ∈ seen ↔
      name ∈ o.members.map Prod.fst ∧ (format.field? name).isSome = true) :
    format.firstMissing? seen = none := by
  refine firstMissing?_eq_none_iff.mpr fun field hfield hoptional => ?_
  rw [h.fields] at hfield
  obtain ⟨slot, hslot, rfl⟩ := List.mem_map.mp hfield
  rw [Slot.field_name, hseen, h.isSome_field?_iff, ← Object.isSome_find?_iff]
  refine ⟨?_, List.mem_map_of_mem hslot⟩
  cases hfind : o.find? slot.name with
  | some v => rfl
  | none =>
      have hdefault := (Object.gives_of_missing hfind).mp (hgives slot hslot)
      rw [Slot.field_optional, hdefault] at hoptional
      cases hoptional

theorem HasSlots.reads_object_iff (h : format.HasSlots slots) (hplace : place.origin ≠ .text) :
    format.decode.Reads place (.object o) result ↔
      (format.closed = true → o.OnlyHas (slots.map Slot.name)) ∧
        ∀ slot ∈ slots, slot.Gives place.inner o result := by
  change format.decode place (.object (Document.ofMembers o.members) none) = .ok result ↔ _
  rw [decode_object_eq_ok_iff]
  constructor
  · rintro ⟨inner, seen, henter, hread, -, hmissing⟩
    obtain rfl := (Place.enter_eq_ok_iff hplace).mp henter
    refine ⟨fun hclosed name hname => ?_, fun slot => h.gives_of_readMembers hread hmissing⟩
    obtain ⟨member, hmember, rfl⟩ := List.mem_map.mp (Object.isSome_find?_iff.mp hname)
    exact h.isSome_field?_iff.mp (isSome_field?_of_closed hclosed hread member hmember)
  · rintro ⟨hknown, hgives⟩
    have hnew : ∀ member ∈ o.members, member.1 ∉ [] := fun _ _ => List.not_mem_nil
    obtain ⟨seen, found, hread⟩ := exists_readMembers o.canonical.1.nodup_names hnew
      (h.accepts_of_gives hknown hgives) format.initial
    have hseen : ∀ name, name ∈ seen ↔
        name ∈ o.members.map Prod.fst ∧ (format.field? name).isSome = true := by
      intro name
      rw [mem_seen_iff hread]
      simp
    have hmissing := h.firstMissing?_of_gives hgives hseen
    -- The object gives what is shown by the record that was read, and by no other record.
    have hfound : found = result := h.ext found result fun slot hslot =>
      Object.Gives.unique (fun v => Decoder.Reads.unique)
        (h.gives_of_readMembers hread hmissing hslot) (hgives slot hslot)
    exact ⟨place.inner, seen, (Place.enter_eq_ok_iff hplace).mpr rfl, hfound ▸ hread, rfl, hmissing⟩

theorem HasSlots.onlyHas_of_reads (h : format.HasSlots slots) (hplace : place.origin ≠ .text)
    (hclosed : format.closed = true) (hread : format.decode.Reads place (.object o) result) :
    o.OnlyHas (slots.map Slot.name) :=
  ((h.reads_object_iff hplace).mp hread).1 hclosed

theorem HasSlots.gives_of_reads (h : format.HasSlots slots) (hplace : place.origin ≠ .text)
    (hread : format.decode.Reads place (.object o) result) :
    ∀ slot ∈ slots, slot.Gives place.inner o result :=
  ((h.reads_object_iff hplace).mp hread).2

end RecordFormat

end RichAuthorization.Json
