import RichAuthorization.Json.Basic
import RichAuthorization.Json.Decimal

/-!
JSON text, with the members of an object in the order of their names, and with only the quote, the
backslash and the characters below U+0020 escaped: compact, or with two spaces of indentation for
each array and object around.
-/

namespace RichAuthorization.Json

def hexDigit (n : Nat) : Char :=
  (Nat.digitChar n)

def escape (c : Char) : List Char :=
  match c with
  | '"' => ['\\', '"']
  | '\\' => ['\\', '\\']
  | '\n' => ['\\', 'n']
  | '\r' => ['\\', 'r']
  | '\t' => ['\\', 't']
  | c =>
    if c.toNat = 0x08 then ['\\', 'b']
    else if c.toNat = 0x0C then ['\\', 'f']
    else if c.toNat < 0x20 then
      ['\\', 'u', '0', '0', hexDigit (c.toNat / 16), hexDigit (c.toNat % 16)]
    else [c]

def quoted (s : String) : String :=
  "\"" ++ String.ofList (s.toList.flatMap escape) ++ "\""

def Number.text : Number → String
  | .int i => toString i
  | .double d => d.text

mutual

def Tree.text : Tree → String
  | .null => "null"
  | .bool b => if b then "true" else "false"
  | .number n => n.text
  | .string s => quoted s
  | .array items => "[" ++ Tree.itemsText items ++ "]"
  | .object members => "\x7b" ++ Tree.membersText members ++ "\x7d"

def Tree.itemsText : List Tree → String
  | [] => ""
  | [t] => t.text
  | t :: rest => t.text ++ "," ++ Tree.itemsText rest

def Tree.membersText : List (String × Tree) → String
  | [] => ""
  | [(name, t)] => quoted name ++ ":" ++ t.text
  | (name, t) :: rest => quoted name ++ ":" ++ t.text ++ "," ++ Tree.membersText rest

end

def text (v : Json) : String :=
  v.tree.text

def newLine (depth : Nat) : String :=
  "\n" ++ String.ofList (List.replicate (2 * depth) ' ')

mutual

def Tree.indented (depth : Nat) : Tree → String
  | .array [] => "[]"
  | .array items => "[" ++ Tree.indentedItems (depth + 1) items ++ newLine depth ++ "]"
  | .object [] => "\x7b\x7d"
  | .object members =>
    "\x7b" ++ Tree.indentedMembers (depth + 1) members ++ newLine depth ++ "\x7d"
  | .null => "null"
  | .bool b => if b then "true" else "false"
  | .number n => n.text
  | .string s => quoted s

def Tree.indentedItems (depth : Nat) : List Tree → String
  | [] => ""
  | [t] => newLine depth ++ t.indented depth
  | t :: rest => newLine depth ++ t.indented depth ++ "," ++ Tree.indentedItems depth rest

def Tree.indentedMembers (depth : Nat) : List (String × Tree) → String
  | [] => ""
  | [(name, t)] => newLine depth ++ quoted name ++ ": " ++ t.indented depth
  | (name, t) :: rest =>
    newLine depth ++ quoted name ++ ": " ++ t.indented depth ++ ","
      ++ Tree.indentedMembers depth rest

end

def indented (v : Json) : String :=
  v.tree.indented 0

end RichAuthorization.Json
