/-!
What happens while a result is found: the questions that are put to others, and the lines that are
logged.

`Traced Q α` is a result of type `α` together with its events in the order of time, where `Q` is the
type of the questions. Events of later steps follow those of earlier ones, so a trace says which
question was asked before which.
-/

namespace RichAuthorization

inductive Level where
  | debug
  | info
  | warn
  | error
deriving DecidableEq

def Level.name : Level → String
  | .debug => "DEBUG"
  | .info => "INFO"
  | .warn => "WARN"
  | .error => "ERROR"

inductive Event (Q : Type) where
  | asked (question : Q)
  | logged (level : Level) (line : String)
deriving DecidableEq

namespace Event

variable {Q : Type}

def question? : Event Q → Option Q
  | .asked q => some q
  | .logged _ _ => none

def line? : Event Q → Option String
  | .asked _ => none
  | .logged level line => some (level.name ++ " " ++ line)

end Event

structure Traced (Q : Type) (α : Type) where
  value : α
  events : List (Event Q)

namespace Traced

variable {Q α β : Type}

instance : Monad (Traced Q) where
  pure a := ⟨a, []⟩
  bind t f :=
    let next := f t.value
    ⟨next.value, t.events ++ next.events⟩

@[simp]
theorem pure_value (a : α) : (pure a : Traced Q α).value = a := rfl

@[simp]
theorem pure_events (a : α) : (pure a : Traced Q α).events = [] := rfl

@[simp]
theorem bind_value (t : Traced Q α) (f : α → Traced Q β) :
    (t >>= f).value = (f t.value).value := rfl

@[simp]
theorem bind_events (t : Traced Q α) (f : α → Traced Q β) :
    (t >>= f).events = t.events ++ (f t.value).events := rfl

instance : LawfulMonad (Traced Q) :=
  LawfulMonad.mk' (Traced Q) (fun t => by cases t; simp [Functor.map])
    (fun a f => by cases h : f a; simp [bind, pure, h])
    (fun t f g => by simp [bind, List.append_assoc])

@[simp]
theorem map_value (f : α → β) (t : Traced Q α) : (f <$> t).value = f t.value := rfl

@[simp]
theorem map_events (f : α → β) (t : Traced Q α) : (f <$> t).events = t.events :=
  List.append_nil _

def ask (question : Q) (answer : α) : Traced Q α :=
  ⟨answer, [.asked question]⟩

def log (level : Level) (line : String) : Traced Q Unit :=
  ⟨(), [.logged level line]⟩

def questions (t : Traced Q α) : List Q :=
  t.events.filterMap Event.question?

def lines (t : Traced Q α) : List String :=
  t.events.filterMap Event.line?

@[simp]
theorem ask_value (q : Q) (a : α) : (ask q a).value = a := rfl

@[simp]
theorem log_value (level : Level) (line : String) :
    (log level line : Traced Q Unit).value = () := rfl

@[simp]
theorem questions_pure (a : α) : (pure a : Traced Q α).questions = [] := rfl

@[simp]
theorem questions_bind (t : Traced Q α) (f : α → Traced Q β) :
    (t >>= f).questions = t.questions ++ (f t.value).questions := by
  simp [questions]

@[simp]
theorem questions_map (f : α → β) (t : Traced Q α) : (f <$> t).questions = t.questions := by
  simp [questions]

@[simp]
theorem questions_ask (q : Q) (a : α) : (ask q a).questions = [q] := rfl

@[simp]
theorem questions_log (level : Level) (line : String) :
    (log level line : Traced Q Unit).questions = [] := rfl

end Traced

end RichAuthorization
