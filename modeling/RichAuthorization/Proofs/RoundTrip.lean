import RichAuthorization.DetailSet
import RichAuthorization.Proofs.Detail
import RichAuthorization.Proofs.Record
import RichAuthorization.Token

/-!
What is written is read back.
-/

namespace RichAuthorization

open Json (Decoder Document Field Place RecordFormat Tree)

namespace Json

namespace Object

theorem eq_of_members_eq {a b : Object} (h : a.members = b.members) : a = b := by
  cases a
  cases b
  simpa using h

theorem erase_erase (o : Object) (name : String) : (o.erase name).erase name = o.erase name :=
  eq_of_members_eq (Named.erase_of_find?_eq_none (Named.find?_erase_self name o.members))

theorem insert_erase {o : Object} {name : String} {v : Json}
    (h : Named.find? name o.members = some v.tree) : (o.erase name).insert name v = o :=
  eq_of_members_eq (o.canonical.1.insert_erase h)

def insertAll (o : Object) (members : List (String × Tree)) : Object :=
  members.foldl (fun o member => o.insert member.1 (ofTree member.2)) o

theorem insertAll_cons (o : Object) (name : String) (t : Tree) (rest : List (String × Tree)) :
    o.insertAll ((name, t) :: rest) = (o.insert name (ofTree t)).insertAll rest := rfl

-- Each member goes to the end, for its name is behind the names that are there.
theorem members_insertAll {members : List (String × Tree)} {o : Object}
    (hsorted : Named.Sorted (o.members ++ members)) (h : Tree.MembersCanonical members) :
    (o.insertAll members).members = o.members ++ members := by
  induction members generalizing o with
  | nil => exact (List.append_nil _).symm
  | cons member rest ih =>
      obtain ⟨name, t⟩ := member
      have hlast : ∀ entry ∈ o.members, entry.1 < name := fun entry hentry =>
        (List.pairwise_append.mp hsorted).2.2 entry hentry (name, t) List.mem_cons_self
      have hinsert : (o.insert name (ofTree t)).members = o.members ++ [(name, t)] := by
        have ht : (ofTree t).tree = t := Tree.normal_of_canonical t h.1
        simp only [insert, ht, Named.insert_of_gt t hlast]
      rw [insertAll_cons, ih (by simpa [hinsert] using hsorted) h.2, hinsert]
      simp

theorem insertAll_members (o : Object) : empty.insertAll o.members = o := by
  have hsorted : Named.Sorted (empty.members ++ o.members) := o.canonical.1
  exact eq_of_members_eq (members_insertAll hsorted o.canonical.2)

end Object

theorem Place.enter_bind {α : Type} {place : Place} (h : place.origin ≠ .text)
    (f : Place → Except DecodeError α) :
    (place.enter >>= f) = f { place with depth := place.depth + 1 } := by
  have henter : place.enter = .ok { place with depth := place.depth + 1 } := by simp [enter, h]
  rw [henter]
  rfl

namespace Decoder

def ReadsBack {α : Type} (decoder : Decoder α) (write : α → Json) : Prop :=
  ∀ place : Place, place.origin ≠ .text → ∀ a,
    decoder place (Document.ofTree (write a).tree) = .ok a

theorem ReadsBack.ofJson {α : Type} {decoder : Decoder α} {write : α → Json}
    (h : decoder.ReadsBack write) (a : α) : Decoder.ofJson decoder (write a) = .ok a :=
  h ⟨.value, 0⟩ (by decide) a

mutual

theorem tree_ofTree : (t : Tree) → {place : Place} → place.origin ≠ .text →
    tree (Document.ofTree t) place = .ok t
  | .null, _, _ => rfl
  | .bool _, _, _ => rfl
  | .number _, _, _ => rfl
  | .string _, _, _ => rfl
  | .array items, place, h => by
      have hitems : treeItems (Document.ofItems items) { place with depth := place.depth + 1 } =
          .ok items := treeItems_ofItems items h
      rw [Document.ofTree, tree, Place.enter_bind h, hitems]
      rfl
  | .object members, place, h => by
      have hmembers : treeMembers (Document.ofMembers members)
          { place with depth := place.depth + 1 } = .ok members := treeMembers_ofMembers members h
      rw [Document.ofTree, tree, Place.enter_bind h, hmembers]
      rfl

theorem treeItems_ofItems : (items : List Tree) → {place : Place} → place.origin ≠ .text →
    treeItems (Document.ofItems items) place = .ok items
  | [], _, _ => rfl
  | t :: rest, place, h => by
      rw [Document.ofItems, treeItems, tree_ofTree t h, treeItems_ofItems rest h]
      rfl

theorem treeMembers_ofMembers : (members : List (String × Tree)) → {place : Place} →
    place.origin ≠ .text → treeMembers (Document.ofMembers members) place = .ok members
  | [], _, _ => rfl
  | (name, t) :: rest, place, h => by
      rw [Document.ofMembers, treeMembers, tree_ofTree t h, treeMembers_ofMembers rest h]
      rfl

end

theorem json_ofTree {place : Place} (h : place.origin ≠ .text) (t : Tree) :
    json place (Document.ofTree t) = .ok (Json.ofTree t) := by
  rw [json, tree_ofTree t h]
  rfl

theorem mapM_ofItems {α : Type} {decoder : Decoder α} {write : α → Json}
    (hdecoder : decoder.ReadsBack write) (place : Place) (h : place.origin ≠ .text)
    (as : List α) :
    (Document.ofItems ((as.map write).map Json.tree)).mapM (decoder place) = .ok as := by
  induction as with
  | nil => rfl
  | cons a rest ih =>
      rw [List.map_cons, List.map_cons, Document.ofItems, List.mapM_cons, hdecoder place h a, ih]
      rfl

theorem ReadsBack.list {α : Type} {decoder : Decoder α} {write : α → Json}
    (hdecoder : decoder.ReadsBack write) :
    (list decoder).ReadsBack fun as => .array (as.map write) := by
  intro place h as
  have hitems := mapM_ofItems hdecoder { place with depth := place.depth + 1 } h as
  change Decoder.list decoder place (.array (Document.ofItems ((as.map write).map Json.tree)) none) =
    .ok as
  rw [Decoder.list, Place.enter_bind h, hitems]
  rfl

end Decoder

end Json

namespace Detail

theorem ofFields_fields (d : Detail) : ofFields d.type d.fields = .ok d := by
  have herase : d.fields.erase typeName = d.fields := by
    apply Json.Object.eq_of_members_eq
    exact Named.erase_of_find?_eq_none (Json.Object.find?_eq_none_iff.mp d.untyped)
  obtain ⟨type, fields, named, untyped⟩ := d
  simp only at herase
  simp [ofFields, named, herase]

variable {place : Place} {members : List (String × Tree)}

theorem readMembers_field (hplace : place.origin ≠ .text) {name : String} (hname : name ≠ typeName)
    (t : Tree) (rest : List (Document × Document)) (type : Option String) (fields : Json.Object) :
    readMembers place ((.string (.ok name) none, Document.ofTree t) :: rest) type fields =
      readMembers place rest type (fields.insert name (.ofTree t)) := by
  simp only [readMembers, Decoder.memberName, Decoder.scanned, bind, Except.bind, hname, if_false,
    Decoder.json_ofTree hplace]

theorem readMembers_type (text : String) (rest : List (Document × Document))
    (fields : Json.Object) :
    readMembers place ((.string (.ok typeName) none, .string (.ok text) none) :: rest) none fields =
      readMembers place rest (some text) fields := by
  simp [readMembers, Decoder.memberName, Decoder.string, Decoder.scanned, bind, Except.bind]

theorem readMembers_fields (hplace : place.origin ≠ .text)
    (h : Named.find? typeName members = none) (type : Option String) (fields : Json.Object) :
    readMembers place (Document.ofMembers members) type fields =
      .ok (type, fields.insertAll members) := by
  induction members generalizing fields with
  | nil => rfl
  | cons member rest ih =>
      obtain ⟨name, t⟩ := member
      simp only [Named.find?] at h
      split at h
      · cases h
      · next hname =>
        rw [Document.ofMembers, readMembers_field hplace hname, ih h]
        rfl

-- The type stands where its name is sorted in, and what is behind it are fields again.
theorem readMembers_insert_type (place : Place) (hplace : place.origin ≠ .text)
    (h : Named.find? typeName members = none) (text : String) (fields : Json.Object) :
    readMembers place (Document.ofMembers (Named.insert typeName (.string text) members)) none
      fields = .ok (some text, fields.insertAll members) := by
  induction members generalizing fields with
  | nil => exact readMembers_type text [] fields
  | cons member rest ih =>
      obtain ⟨name, t⟩ := member
      have hrest := h
      simp only [Named.find?] at hrest
      split at hrest
      · cases hrest
      · next hname =>
        simp only [Named.insert, Ne.symm hname, if_false]
        split
        · rw [Document.ofMembers, Document.ofTree, readMembers_type, readMembers_fields hplace h]
        · rw [Document.ofMembers, readMembers_field hplace hname, ih hrest]
          rfl

theorem readsBack_toJson : decode.ReadsBack toJson := by
  intro place hplace d
  have hnone : Named.find? typeName d.fields.members = none :=
    Json.Object.find?_eq_none_iff.mp d.untyped
  have hread := readMembers_insert_type { place with depth := place.depth + 1 } hplace hnone
    d.type .empty
  rw [Json.Object.insertAll_members] at hread
  simp only [toJson, Json.object, Json.Object.insert, Json.string, Document.ofTree, decode,
    Json.Place.enter_bind hplace, hread]
  simp only [bind, Except.bind, Decoder.finish, ofFields_fields]
  rfl

end Detail

theorem DetailSet.readsBack_toJson : decode.ReadsBack toJson := by
  intro place hplace s
  have hlist := Detail.readsBack_toJson.list place hplace s.toList
  simp only [decode, toJson, hlist, Except.map, ofList_toList]

namespace Detail

variable {place : Place}

theorem text?_ofTree_eq_some_iff {t : Tree} {text : String} :
    (Document.ofTree t).text? = some text ↔ t = .string text := by
  cases t <;> simp [Document.ofTree, Document.text?]

theorem readMembers_type_eq_ok_iff {d : Document} {rest : List (Document × Document)}
    {type : Option String} {fields : Json.Object} {result : Option String × Json.Object} :
    readMembers place ((.string (.ok typeName) none, d) :: rest) type fields = .ok result ↔
      type = none ∧ ∃ text, d.text? = some text ∧
        readMembers place rest (some text) fields = .ok result := by
  simp only [readMembers, Decoder.memberName, Decoder.scanned, Except.bind_eq_ok_iff,
    Except.ok.injEq, exists_eq_left', if_true]
  cases type with
  | some known => simp [Decoder.mismatch]
  | none => simp [Except.bind_eq_ok_iff, Decoder.string_eq_ok_iff]

def writtenType? (members : List (String × Tree)) : Option String :=
  ((Named.find? typeName members).map Json.ofTree).bind Json.string?

theorem find?_of_writtenType? {members : List (String × Tree)} {text : String}
    (h : writtenType? members = some text) :
    Named.find? typeName members = some (.string text) := by
  obtain ⟨v, hv, htext⟩ := Option.bind_eq_some_iff.mp h
  obtain ⟨t, ht, rfl⟩ := Option.map_eq_some_iff.mp hv
  rw [ht]
  cases t with
  | string found =>
      cases htext
      rfl
  | _ => cases htext

theorem ofFields_eq_ok_iff {type : String} {fields : Json.Object} {d : Detail} :
    ofFields type fields = .ok d ↔ d.type = type ∧ d.fields = fields.erase typeName := by
  constructor
  · intro h
    simp only [ofFields] at h
    split at h
    · cases h
      exact ⟨rfl, rfl⟩
    · cases h
  · obtain ⟨text, own, named, untyped⟩ := d
    rintro ⟨rfl, rfl⟩
    simp [ofFields, named]

-- The induction is on the members: the type is read at most once, and all other members go to the
-- fields.
theorem readMembers_ofMembers (hplace : place.origin ≠ .text) {members : List (String × Tree)}
    {type type' : Option String} {fields fields' : Json.Object}
    (h : readMembers place (Document.ofMembers members) type fields = .ok (type', fields')) :
    type' = type.or (writtenType? members) ∧
      fields' = fields.insertAll (Named.erase typeName members) := by
  induction members generalizing type fields with
  | nil =>
      cases h
      exact ⟨(Option.or_none).symm, rfl⟩
  | cons member rest ih =>
      obtain ⟨name, t⟩ := member
      rw [Document.ofMembers] at h
      by_cases hname : name = typeName
      · subst hname
        obtain ⟨rfl, text, htext, hrest⟩ := readMembers_type_eq_ok_iff.mp h
        obtain rfl := text?_ofTree_eq_some_iff.mp htext
        obtain ⟨htype, hfields⟩ := ih hrest
        rw [Named.erase_cons_self]
        refine ⟨?_, hfields⟩
        rw [htype, writtenType?, writtenType?, Named.find?, if_pos rfl]
        rfl
      · rw [readMembers_field hplace hname] at h
        rw [Named.erase_cons_of_ne hname, writtenType?, Named.find?, if_neg hname]
        exact ih h

theorem toJson_of_decode (hplace : place.origin ≠ .text) {v : Json} {d : Detail}
    (h : decode place (Document.ofTree v.tree) = .ok d) : d.toJson = v := by
  obtain ⟨t, canonical⟩ := v
  cases t with
  | object members =>
      simp only [Document.ofTree, decode, Place.enter_bind hplace, Except.bind_eq_ok_iff] at h
      obtain ⟨⟨type, fields⟩, hread, -, -, hresult⟩ := h
      obtain ⟨htype, hfields⟩ := readMembers_ofMembers (by exact hplace) hread
      let o : Json.Object := ⟨members, canonical⟩
      have hrest : fields = o.erase typeName :=
        hfields.trans (Json.Object.insertAll_members (o.erase typeName))
      cases type with
      | none => cases hresult
      | some text =>
          have hfind := find?_of_writtenType? htype.symm
          obtain ⟨rfl, hown⟩ : d.type = text ∧ d.fields = fields.erase typeName := by
            rw [← ofFields_eq_ok_iff]
            cases hmade : ofFields text fields with
            | error refusal => simp [hmade, Decoder.mismatch] at hresult
            | ok made => simpa [hmade, pure, Except.pure] using hresult
          have hinsert : (o.erase typeName).insert typeName (.string d.type) = o :=
            Json.Object.insert_erase hfind
          rw [toJson, hown, hrest, Json.Object.erase_erase, hinsert]
          rfl
  | _ =>
      simp only [Document.ofTree, decode] at h
      exact absurd h Decoder.wrongType_ne_ok

theorem ofJson_decode_eq_ok_iff {v : Json} {d : Detail} :
    Decoder.ofJson decode v = .ok d ↔ v = d.toJson := by
  constructor
  · intro h
    exact (toJson_of_decode (by decide) h).symm
  · rintro rfl
    exact readsBack_toJson.ofJson d

end Detail

namespace Json

namespace Field

variable {σ α : Type} {name : String} {decoder : Decoder α} {write : α → Json} {set : α → σ → σ}

def ReadsBack (field : Field σ) (write : α → Json) (set : α → σ → σ) : Prop :=
  ∀ place : Place, place.origin ≠ .text → ∀ a,
    field.read place (Document.ofTree (write a).tree) = .ok (set a)

theorem readsBack_required (h : decoder.ReadsBack write) :
    (required name decoder set).ReadsBack write set := by
  intro place hplace a
  simp only [required, h place hplace a, Except.map]

theorem readsBack_withDefault_of_reads {β : Type} {write : β → Json} {value : β → α}
    (h : ∀ place : Place, place.origin ≠ .text → ∀ b,
      decoder place (Document.ofTree (write b).tree) = .ok (value b)) :
    (withDefault name decoder set).ReadsBack write fun b => set (value b) := by
  intro place hplace b
  simp only [withDefault, h place hplace b, Except.map]

theorem readsBack_withDefault (h : decoder.ReadsBack write) :
    (withDefault name decoder set).ReadsBack write set :=
  readsBack_withDefault_of_reads h

end Field

theorem RecordFormat.readMembers_of_readsBack {σ α : Type} {format : RecordFormat σ}
    {field : Field σ} {write : α → Json} {set : α → σ → σ} {place : Place} {name : String}
    {seen : List String} (hplace : place.origin ≠ .text) (hfield : format.field? name = some field)
    (h : field.ReadsBack write set) (hnew : name ∉ seen) (a : α)
    (rest : List (String × Tree)) (state : σ) :
    format.readMembers place (Document.ofMembers ((name, (write a).tree) :: rest)) seen state =
      format.readMembers place (Document.ofMembers rest) (name :: seen) (set a state) := by
  rw [field?] at hfield
  simp only [Document.ofMembers, readMembers, Decoder.memberName, Decoder.scanned, bind,
    Except.bind, hfield, if_neg hnew, h place hplace a]

namespace Decoder

theorem readsBack_string : Decoder.string.ReadsBack Json.string :=
  fun _ _ _ => rfl

theorem readsBack_strings : Decoder.string.list.ReadsBack Json.strings :=
  readsBack_string.list

theorem signed_int (bits : Nat) {i : Int} (hlower : -Int.pow 2 (bits - 1) ≤ i)
    (hupper : i < Int.pow 2 (bits - 1)) (place : Place) :
    signed bits place (Document.ofTree (Json.int i).tree) = .ok i :=
  if_pos (Bool.and_eq_true_iff.mpr ⟨decide_eq_true hlower, decide_eq_true hupper⟩)

theorem readsBack_int32 : Decoder.int32.ReadsBack fun n => .int n.toInt := by
  intro place _ n
  have hlower : -Int.pow 2 (32 - 1) ≤ n.toInt := n.le_toInt
  have hupper : n.toInt < Int.pow 2 (32 - 1) := n.toInt_lt
  rw [int32, signed_int 32 hlower hupper, Except.map, Int32.ofInt_toInt]

end Decoder

end Json

namespace AccessToken

theorem tree_toJson (t : AccessToken) :
    t.toJson.tree = .object [
      ("authorization_details", t.details.toJson.tree),
      ("consumer_key", (Json.string t.consumerKey).tree),
      ("scopes", (Json.strings t.scopes).tree),
      ("tenant_id", (Json.int t.tenantId.toInt).tree),
      ("token_id", (Json.string t.id).tree)] := by
  simp +decide only [toJson, Json.record, Json.Object.ofList, List.foldl_cons, List.foldl_nil,
    Json.Object.insert, Json.Object.empty, Json.object, Named.insert, if_true, if_false]

-- One step for each member, in the order in which members are written.
theorem readMembers_toJson (place : Place) (hplace : place.origin ≠ .text) (t : AccessToken) :
    format.readMembers place (Document.ofMembers [
        ("authorization_details", t.details.toJson.tree),
        ("consumer_key", (Json.string t.consumerKey).tree),
        ("scopes", (Json.strings t.scopes).tree),
        ("tenant_id", (Json.int t.tenantId.toInt).tree),
        ("token_id", (Json.string t.id).tree)]) [] format.initial =
      .ok (["token_id", "tenant_id", "scopes", "consumer_key", "authorization_details"], t) := by
  rw [RecordFormat.readMembers_of_readsBack hplace rfl
        (Field.readsBack_withDefault DetailSet.readsBack_toJson) (by decide) t.details,
    RecordFormat.readMembers_of_readsBack hplace rfl
        (Field.readsBack_required Decoder.readsBack_string) (by decide) t.consumerKey,
    RecordFormat.readMembers_of_readsBack hplace rfl
        (Field.readsBack_withDefault Decoder.readsBack_strings) (by decide) t.scopes,
    RecordFormat.readMembers_of_readsBack hplace rfl
        (Field.readsBack_required Decoder.readsBack_int32) (by decide) t.tenantId,
    RecordFormat.readMembers_of_readsBack hplace rfl
        (Field.readsBack_required Decoder.readsBack_string) (by decide) t.id]
  rfl

theorem readsBack_toJson : decode.ReadsBack toJson := by
  intro place hplace t
  rw [tree_toJson, Document.ofTree, decode, RecordFormat.decode, Json.Place.enter_bind hplace,
    readMembers_toJson { place with depth := place.depth + 1 } hplace]
  rfl

end AccessToken

end RichAuthorization
