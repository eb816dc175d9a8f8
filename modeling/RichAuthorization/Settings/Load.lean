import RichAuthorization.Settings.Basic
import RichAuthorization.Settings.Block
import RichAuthorization.Settings.Inline

/-!
How settings are put together: a file, and above it the environment.

A variable whose name begins with `RAR_TOOL__`, in any case, stands for one member. What follows the
prefix names it, with two underscores for each step into an object. Objects are merged member by
member, and any other value takes the place of what was there.
-/

namespace RichAuthorization

namespace Json

mutual

def Tree.overlay : Tree → Tree → Tree
  | .object base, .object upper => .object (Tree.overlayMembers base upper)
  | _, upper => upper

def Tree.overlayMembers (base : List (String × Tree)) : List (String × Tree) → List (String × Tree)
  | [] => base
  | (name, v) :: rest =>
    let value := match Named.find? name base with
      | some b => b.overlay v
      | none => v
    Tree.overlayMembers (Named.insert name value base) rest

end

end Json

namespace Settings

open Json (Tree)

structure Surroundings where
  fileText : String → Option String
  environment : NameMap String

inductive LoadError where
  | missingFile (path : String)
  | invalid
deriving DecidableEq

def LoadError.message : LoadError → String
  | .missingFile path => "config file " ++ path ++ " not found"
  | .invalid => "invalid rar-tool configuration"

def environmentPrefix : String := "RAR_TOOL__"

def pointed : List Char → List Char
  | '_' :: '_' :: rest => '.' :: pointed rest
  | c :: rest => c :: pointed rest
  | [] => []

def memberPath? (variableName : String) : Option (List String) :=
  let size := environmentPrefix.length
  let cs := variableName.toList
  if (cs.take size).map Char.toUpper = environmentPrefix.toList then
    let name := Text.trimBoth Text.isWhiteSpace (pointed (cs.drop size))
    let path := (String.ofList (name.map Char.toLower)).splitOn "."
    if path.contains "" then none else some path
  else none

def nest (value : Tree) : List String → Tree
  | [] => value
  | name :: path => .object [(name, nest value path)]

def overlayEnvironment (environment : NameMap String) (base : Tree) : Tree :=
  environment.entries.foldl (fun t entry =>
    match memberPath? entry.1 with
    | some path => t.overlay (nest (Inline.read entry.2).normal path)
    | none => t) base

def fileObject? (text : String) : Option Tree :=
  let found := match Json.Decoder.json.ofText text with
    | .ok v => some v.tree
    | .error _ => (Block.read? text).map Tree.normal
  found.filter fun
    | .object _ => true
    | _ => false

def load (surroundings : Surroundings) (path : Option String) : Except LoadError Settings := do
  let base ← match path with
    | none => pure (Tree.object [])
    | some path =>
      match surroundings.fileText path with
      | none => .error (.missingFile path)
      | some text =>
        match fileObject? text with
        | none => .error .invalid
        | some t => pure t
  let merged := overlayEnvironment surroundings.environment base
  match decode.ofSettings (Json.ofTree merged) with
  | .ok settings => pure settings
  | .error _ => .error .invalid

end Settings

end RichAuthorization
