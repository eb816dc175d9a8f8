import RichAuthorization.Processor
import RichAuthorization.RequestContext
import RichAuthorization.Trace

/-!
The registry of processors, at most one for each type.
-/

namespace RichAuthorization

structure Registry where
  processors : NameMap Processor
  keyed : ∀ entry ∈ processors.entries, entry.2.type = entry.1 ∧ Text.isBlank entry.1 = false

namespace Registry

def empty : Registry := ⟨.empty, by simp [NameMap.empty]⟩

instance : Inhabited Registry := ⟨empty⟩

def find? (r : Registry) (type : String) : Option Processor :=
  r.processors.find? type

def size (r : Registry) : Nat :=
  r.processors.size

def types (r : Registry) : List String :=
  r.processors.names

theorem keyed_insert (r : Registry) (p : Processor) (h : Text.isBlank p.type = false) :
    ∀ entry ∈ (r.processors.insert p.type p).entries,
      entry.2.type = entry.1 ∧ Text.isBlank entry.1 = false := by
  intro entry hentry
  rcases Named.mem_insert hentry with rfl | hentry
  · exact ⟨rfl, h⟩
  · exact r.keyed entry hentry

def insert (r : Registry) (p : Processor) (h : Text.isBlank p.type = false) : Registry :=
  ⟨r.processors.insert p.type p, r.keyed_insert p h⟩

theorem find?_empty (type : String) : empty.find? type = none := rfl

theorem find?_insert_self (r : Registry) (p : Processor) (h : Text.isBlank p.type = false) :
    (r.insert p h).find? p.type = some p :=
  NameMap.find?_insert_self r.processors p.type p

theorem find?_insert_of_ne {type : String} (r : Registry) (p : Processor)
    (h : Text.isBlank p.type = false) (hne : p.type ≠ type) :
    (r.insert p h).find? type = r.find? type :=
  NameMap.find?_insert_of_ne hne r.processors p

theorem type_of_find? {r : Registry} {type : String} {p : Processor} (h : r.find? type = some p) :
    p.type = type ∧ Text.isBlank type = false :=
  r.keyed (type, p) (Named.mem_of_find? h)

def register (r : Registry) (p : Processor) : Traced Question (Bool × Registry) := do
  if h : Text.isBlank p.type = false then
    Traced.log .debug "Registering authorization details processor"
    if (r.find? p.type).isSome then
      Traced.log .debug "Replaced authorization details processor"
    pure (true, r.insert p h)
  else
    Traced.log .debug "Ignoring authorization details processor with a blank type"
    pure (false, r)

theorem register_value_of_not_blank (r : Registry) {p : Processor}
    (h : Text.isBlank p.type = false) : (r.register p).value = (true, r.insert p h) := by
  simp only [register, h, ↓reduceDIte, bind_pure_comp, Traced.bind_value]
  split <;> simp

theorem register_value_of_blank (r : Registry) {p : Processor} (h : Text.isBlank p.type = true) :
    (r.register p).value = (false, r) := by
  simp [register, h]

def registerAll (r : Registry) : List Processor → Traced Question Registry
  | [] => pure r
  | p :: rest => do
    let (_, r) ← r.register p
    r.registerAll rest

def ofList (processors : List Processor) : Traced Question Registry :=
  empty.registerAll processors

def registerDiscovered (r : Registry) : List Processor → Traced Question (Nat × Registry)
  | [] => pure (0, r)
  | p :: rest => do
    Traced.log .debug "Discovered authorization details processor"
    let (accepted, r) ← r.register p
    if !accepted then
      Traced.log .warn "Skipping discovered processor with a blank type"
    let (count, r) ← r.registerDiscovered rest
    pure ((if accepted then count + 1 else count), r)

def supportedTypes (r : Registry) (catalog : Catalog) (ctx : RequestContext) :
    Traced Question (List String) := do
  match ← Traced.ask (.catalog ctx.tenant "") (catalog.list "" ctx.tenant) with
  | .ok listed =>
    pure (Named.sortedNames ((listed.map DetailType.type).filter fun t => (r.find? t).isSome))
  | .error _ =>
    Traced.log .debug "Failed to list authorization details types"
    pure []

def isSupportedType (r : Registry) (type : String) (catalog : Catalog) (ctx : RequestContext) :
    Traced Question Bool := do
  let supported ← r.supportedTypes catalog ctx
  pure (supported.contains type)

end Registry

end RichAuthorization
