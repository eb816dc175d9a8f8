import Mathlib.Data.Set.List
import RichAuthorization.Proofs.InsertionOrder
import RichAuthorization.Proofs.Reading

/-!
Which values are read as authorization details, and what is written of them again.
-/

namespace RichAuthorization

open Json (Decoder)

namespace Json

namespace Decoder

def ReadsExactly {α : Type} (decoder : Decoder α) (write : α → Json) : Prop :=
  ∀ place : Place, place.origin ≠ .text → ∀ v a,
    decoder place (Document.ofTree v.tree) = .ok a ↔ v = write a

variable {α : Type} {decoder : Decoder α} {write : α → Json}

theorem ReadsExactly.reads_eq (h : decoder.ReadsExactly write) {place : Place}
    (hplace : place.origin ≠ .text) : decoder.Reads place = fun v a => v = write a :=
  funext₂ fun v a => propext (h place hplace v a)

theorem ReadsExactly.list (h : decoder.ReadsExactly write) :
    (list decoder).ReadsExactly fun as => .array (as.map write) := by
  intro place hplace v as
  have hitem : decoder.Reads place.inner = fun v a => v = write a := h.reads_eq hplace
  have hitems : ∀ items : List Json,
      List.Forall₂ (fun v a => v = write a) items as ↔ items = as.map write := by
    intro items
    rw [← List.forall₂_map_right_iff, List.forall₂_eq_eq_eq]
  change (Decoder.list decoder).Reads place v as ↔ _
  simp only [reads_list_iff hplace, hitem, hitems, exists_eq_right]

end Decoder

theorem Tree.sameMembers_iff {as bs : List (String × Tree)} :
    sameMembers as bs = true ↔
      List.Forall₂ (fun a b => a.1 = b.1 ∧ a.2.same b.2 = true) as bs := by
  induction as generalizing bs with
  | nil => cases bs <;> simp [sameMembers]
  | cons a as ih => cases bs <;> simp [sameMembers, ih, and_assoc]

theorem Tree.sameMembers_insert {name : String} {as bs : List (String × Tree)}
    (ha : Named.find? name as = none) (hb : Named.find? name bs = none) (u v : Tree) :
    sameMembers (Named.insert name u as) (Named.insert name v bs) =
      (u.same v && sameMembers as bs) := by
  rw [Bool.eq_iff_iff, Bool.and_eq_true, sameMembers_iff, sameMembers_iff]
  exact Named.forall₂_insert (fun a b => a.same b = true) ha hb u v

end Json

namespace Detail

theorem beq_toJson (a b : Detail) : (a.toJson == b.toJson) = (a == b) := by
  have hobject : (a.toJson == b.toJson) =
      Json.Tree.sameMembers (Named.insert typeName (.string a.type) a.fields.members)
        (Named.insert typeName (.string b.type) b.fields.members) := rfl
  have ha : Named.find? typeName a.fields.members = none :=
    Json.Object.find?_eq_none_iff.mp a.untyped
  have hb : Named.find? typeName b.fields.members = none :=
    Json.Object.find?_eq_none_iff.mp b.untyped
  rw [hobject, Json.Tree.sameMembers_insert ha hb]
  rfl

theorem readsExactly_toJson : decode.ReadsExactly toJson := by
  intro place hplace v d
  constructor
  · intro h
    exact (toJson_of_decode hplace h).symm
  · rintro rfl
    exact readsBack_toJson place hplace d

def Form (v : Json) : Prop :=
  ∃ o type, v = .object o ∧ o.find? "type" = some (.string type) ∧
    ∃ c ∈ type.toList, Text.isWhiteSpace c = false

theorem isBlank_eq_false_iff {text : String} :
    Text.isBlank text = false ↔ ∃ c ∈ text.toList, Text.isWhiteSpace c = false := by
  simp [Text.isBlank]

theorem form_iff {v : Json} : Form v ↔ ∃ d : Detail, v = d.toJson := by
  constructor
  · rintro ⟨o, type, rfl, htype, hnamed⟩
    let d : Detail :=
      ⟨type, o.erase typeName, isBlank_eq_false_iff.mpr hnamed, o.find?_erase_self typeName⟩
    have hwritten : writtenType? o.members = some type := by
      change (o.find? typeName).bind Json.string? = some type
      rw [show o.find? typeName = some (.string type) from htype]
      rfl
    have hobject : d.fields.insert typeName (.string type) = o :=
      Json.Object.insert_erase (find?_of_writtenType? hwritten)
    exact ⟨d, congrArg Json.object hobject.symm⟩
  · rintro ⟨d, rfl⟩
    exact ⟨_, d.type, rfl, d.fields.find?_insert_self typeName _, isBlank_eq_false_iff.mp d.named⟩

end Detail

namespace DetailSet

theorem reads_iff {place : Json.Place} (hplace : place.origin ≠ .text) {v : Json} {s : DetailSet} :
    decode.Reads place v s ↔
      ∃ details : List Detail, v = .array (details.map Detail.toJson) ∧ ofList details = s := by
  have hlist := Detail.readsExactly_toJson.list place hplace v
  simp only [Decoder.Reads, decode, Except.map_eq_ok_iff, hlist]

theorem ofJson_decode_eq_ok_iff {v : Json} {s : DetailSet} :
    Decoder.ofJson decode v = .ok s ↔
      ∃ details : List Detail, v = .array (details.map Detail.toJson) ∧ ofList details = s :=
  reads_iff (by decide)

theorem reads_exactly_details (v : Json) :
    ((∃ s, Decoder.ofJson decode v = .ok s) ↔
      ∃ items, v = .array items ∧ ∀ item ∈ items, Detail.Form item) ∧
    ∀ items s, v = .array items → Decoder.ofJson decode v = .ok s →
      s.toJson = .array (firstOccurrences items) := by
  constructor
  · simp only [ofJson_decode_eq_ok_iff]
    constructor
    · rintro ⟨s, details, rfl, -⟩
      refine ⟨_, rfl, List.forall_mem_map.mpr fun d _ => ?_⟩
      exact Detail.form_iff.mpr ⟨d, rfl⟩
    · rintro ⟨items, rfl, hitems⟩
      have hrange : items ∈ Set.range (List.map Detail.toJson) := by
        rw [Set.range_list_map]
        intro item hitem
        obtain ⟨d, hd⟩ := Detail.form_iff.mp (hitems item hitem)
        exact ⟨d, hd.symm⟩
      obtain ⟨details, rfl⟩ := hrange
      exact ⟨_, details, rfl, rfl⟩
  · rintro items s rfl h
    obtain ⟨details, hitems, rfl⟩ := ofJson_decode_eq_ok_iff.mp h
    obtain rfl := Json.array_injective hitems
    rw [toJson, toList_ofList, firstOccurrences_map Detail.beq_toJson]

end DetailSet

namespace Payments

def written : List Json :=
  repeated.map Detail.toJson

theorem payments_read_exactly :
    (∀ item ∈ written, Detail.Form item) ∧
      ∃ s, Decoder.ofJson DetailSet.decode (.array written) = .ok s ∧
        s.toJson = .array [
          .record [("type", .string "payment"), ("amount", .int 0),
            ("actions", .strings ["initiate"])],
          .record [("type", .string "account")],
          .record [("actions", .strings ["initiate"]), ("amount", .number (.double (.zero false))),
            ("type", .string "payment")]] := by
  have hform : ∀ item ∈ written, Detail.Form item :=
    List.forall_mem_map.mpr fun d _ => Detail.form_iff.mpr ⟨d, rfl⟩
  obtain ⟨hread, hwritten⟩ := DetailSet.reads_exactly_details (.array written)
  obtain ⟨s, hs⟩ := hread.mpr ⟨written, rfl, hform⟩
  exact ⟨hform, s, hs, hwritten written s rfl hs⟩

end Payments

end RichAuthorization
