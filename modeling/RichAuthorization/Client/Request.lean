import RichAuthorization.Text.Blank

/-!
The parameters of a token request, and what is known of the client that sends it.
-/

namespace RichAuthorization.Client

structure Request where
  body : List (String × String)
  query : List (String × String)
deriving DecidableEq

namespace Request

def grantTypeName : String := "grant_type"

def clientIdName : String := "client_id"

def responseModeName : String := "response_mode"

def directMode : String := "direct"

def empty : Request := ⟨[], []⟩

instance : Inhabited Request := ⟨empty⟩

def withBody (r : Request) (name value : String) : Request :=
  { r with body := r.body ++ [(name, value)] }

def withQuery (r : Request) (name value : String) : Request :=
  { r with query := r.query ++ [(name, value)] }

inductive Addition where
  | body (name value : String)
  | query (name value : String)
deriving DecidableEq

def add (r : Request) : Addition → Request
  | .body name value => r.withBody name value
  | .query name value => r.withQuery name value

def ofAdditions (additions : List Addition) : Request :=
  additions.foldl add empty

def valuesOf (name : String) (parameters : List (String × String)) : List String :=
  (parameters.filter fun parameter => parameter.1 = name).map Prod.snd

def bodyValues (r : Request) (name : String) : List String :=
  valuesOf name r.body

def bodyValue? (r : Request) (name : String) : Option String :=
  (r.bodyValues name).head?

def queryValue? (r : Request) (name : String) : Option String :=
  (valuesOf name r.query).getLast?

def parameter? (r : Request) (name : String) : Option String :=
  (r.queryValue? name).or (r.bodyValue? name)

def isApiBased (r : Request) : Bool :=
  r.parameter? responseModeName == some directMode

def present (value : Option String) : Option String :=
  value.filter fun v => !Text.isBlank v

/-- The client that the request names: in the body, or else, through the authentication API, in the
query. Blank names do not count. -/
def clientId? (r : Request) : Option String :=
  let inBody := present (r.bodyValue? clientIdName)
  if inBody.isNone && r.isApiBased then present (r.queryValue? clientIdName) else inBody

end Request

structure Authentication where
  clientId : Option String
deriving DecidableEq

namespace Authentication

def unknown : Authentication := ⟨none⟩

instance : Inhabited Authentication := ⟨unknown⟩

def isBlank (a : Authentication) : Bool :=
  a.clientId.all Text.isBlank

def resolve (a : Authentication) (r : Request) : Authentication :=
  if a.isBlank then ⟨r.clientId?⟩ else a

theorem resolve_of_not_blank {a : Authentication} (r : Request) (h : a.isBlank = false) :
    a.resolve r = a := by
  simp [resolve, h]

theorem resolve_of_blank {a : Authentication} (r : Request) (h : a.isBlank = true) :
    a.resolve r = ⟨r.clientId?⟩ := by
  simp [resolve, h]

end Authentication

end RichAuthorization.Client
