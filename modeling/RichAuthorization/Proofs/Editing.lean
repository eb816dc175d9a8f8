import RichAuthorization.Proofs.RoundTrip
import RichAuthorization.Proofs.Validation

/-!
Details from where they start to where they are read again.
-/

namespace RichAuthorization

open Json (Decoder)

def lastValue? (name : String) (edits : List (String × Json)) : Option Json :=
  ((edits.filter fun edit => edit.1 = name).getLast?).map Prod.snd

theorem lastValue?_append_self (edits : List (String × Json)) (name : String) (value : Json) :
    lastValue? name (edits ++ [(name, value)]) = some value := by
  simp [lastValue?]

theorem lastValue?_append_of_ne (edits : List (String × Json)) {name other : String}
    (h : name ≠ other) (value : Json) :
    lastValue? other (edits ++ [(name, value)]) = lastValue? other edits := by
  simp [lastValue?, h]

namespace Detail

inductive Source where
  | bare (type : String)
  | written (v : Json)

namespace Source

def member? : Source → String → Option Json
  | .bare type, name => if name = typeName then some (.string type) else none
  | .written v, name => v.member? name

inductive Yields : Source → Detail → Prop
  | bare {type : String} {d : Detail} : ofType type = .ok d → Yields (.bare type) d
  | written {v : Json} {d : Detail} : Decoder.ofJson decode v = .ok d → Yields (.written v) d

end Source

inductive Edited (source : Source) : List (String × Json) → Detail → Prop
  | start {d : Detail} : source.Yields d → Edited source [] d
  | set {edits : List (String × Json)} {d : Detail} (name : String) (value : Json) :
      Edited source edits d → Edited source (edits ++ [(name, value)]) (d.set name value)
  | exchange {edits : List (String × Json)} {d : Detail} (name : String) (value : Json) :
      Edited source edits d →
      Edited source (edits ++ [(name, value)]) (d.exchange name value).2

structure Follows (source : Source) (edits : List (String × Json)) (d : Detail) : Prop where
  type_eq : source.member? "type" = some (.string d.type)
  named : Text.isBlank d.type = false
  untyped : d.fields.find? "type" = none
  field?_eq : ∀ name, name ≠ "type" →
    d.field? name = (lastValue? name edits).or (source.member? name)
  exchange_eq : ∀ name value, (d.exchange name value).1 =
    if name = "type" then none else (lastValue? name edits).or (source.member? name)
  readsBack : Decoder.ofJson decode d.toJson = .ok d

theorem follows_of_fields {source : Source} {edits : List (String × Json)} {d : Detail}
    (htype : source.member? typeName = some (.string d.type))
    (hfields : ∀ name, name ≠ typeName →
      d.field? name = (lastValue? name edits).or (source.member? name)) :
    Follows source edits d := by
  refine ⟨htype, d.named, d.untyped, hfields, ?_, readsBack_toJson.ofJson d⟩
  intro name value
  simp only [exchange]
  split
  · next h => exact (if_pos h).symm
  · next h => exact (hfields name h).trans (if_neg h).symm

theorem member?_toJson_type (d : Detail) : d.toJson.member? typeName = some (.string d.type) :=
  Json.Object.find?_insert_self d.fields typeName (.string d.type)

theorem member?_toJson_of_ne (d : Detail) {name : String} (h : name ≠ typeName) :
    d.toJson.member? name = d.field? name :=
  Json.Object.find?_insert_of_ne (Ne.symm h) d.fields (.string d.type)

theorem Source.Yields.follows {source : Source} {d : Detail} (h : source.Yields d) :
    Follows source [] d := by
  cases h with
  | bare hmade =>
      obtain ⟨rfl, hfields⟩ := ofFields_eq_ok_iff.mp hmade
      have htype : (Source.bare d.type).member? typeName = some (.string d.type) := by
        simp [Source.member?]
      refine follows_of_fields htype fun name hname => ?_
      rw [field?, hfields, Json.Object.find?_erase_of_ne (Ne.symm hname)]
      simp [Source.member?, lastValue?, hname]
  | written hread =>
      obtain rfl := ofJson_decode_eq_ok_iff.mp hread
      exact follows_of_fields d.member?_toJson_type fun name hname =>
        (d.member?_toJson_of_ne hname).symm

theorem Follows.set {source : Source} {edits : List (String × Json)} {d : Detail}
    (h : Follows source edits d) (name : String) (value : Json) :
    Follows source (edits ++ [(name, value)]) (d.set name value) := by
  refine follows_of_fields (by rw [set_type]; exact h.type_eq) fun other hother => ?_
  by_cases heq : name = other
  · subst heq
    rw [d.field?_set_self hother, lastValue?_append_self, Option.some_or]
  · rw [d.field?_set_of_ne heq, lastValue?_append_of_ne edits heq]
    exact h.field?_eq other hother

theorem Edited.follows {source : Source} {edits : List (String × Json)} {d : Detail}
    (h : Edited source edits d) : Follows source edits d := by
  induction h with
  | start hstart => exact hstart.follows
  | set name value _ ih => exact ih.set name value
  | @exchange edits d name value _ ih =>
      rw [d.exchange_eq]
      exact ih.set name value

end Detail

theorem details_survive_writing :
    (∀ source edits d, Detail.Edited source edits d → Detail.Follows source edits d) ∧
      (∀ s : DetailSet, Decoder.ofJson DetailSet.decode s.toJson = .ok s) ∧
      ∀ t : AccessToken, Decoder.ofJson AccessToken.decode t.toJson = .ok t :=
  ⟨fun _ _ _ h => h.follows, DetailSet.readsBack_toJson.ofJson, AccessToken.readsBack_toJson.ofJson⟩

namespace Payments

def edits : List (String × Json) :=
  [("type", .string "payment"), ("balance", .int 12), ("balance", .int 7)]

def edited : Detail :=
  (((account.set "type" (.string "payment")).set "balance" (.int 12)).exchange "balance"
    (.int 7)).2

theorem edited_survives_writing :
    Detail.Edited (.bare "account") edits edited ∧ edited.type = "account" ∧
      edited.field? "balance" = some (.int 7) ∧
      (edited.exchange "balance" .null).1 = some (.int 7) ∧
      Decoder.ofJson Detail.decode edited.toJson = .ok edited := by
  have hedited : Detail.Edited (.bare "account") edits edited :=
    .exchange "balance" (.int 7) (.set "balance" (.int 12) (.set "type" (.string "payment")
      (.start (.bare rfl))))
  have hfollows := details_survive_writing.1 _ _ _ hedited
  exact ⟨hedited, rfl, hfollows.field?_eq "balance" (by decide),
    hfollows.exchange_eq "balance" .null, hfollows.readsBack⟩

end Payments

end RichAuthorization
