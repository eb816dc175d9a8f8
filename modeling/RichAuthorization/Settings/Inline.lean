import RichAuthorization.Settings.Scalar
import RichAuthorization.Text.Blank

/-!
Values as they are written in environment variables.

A value is `true`, `false`, a number, a quoted text, a list `[a, b]` or a table with entries such as
`key=value` between braces. All that is none of these, or has something behind it, is a text as it
stands.
-/

namespace RichAuthorization.Settings.Inline

open Json (Tree)

def isSpace (c : Char) : Bool :=
  c == ' ' || c == '\t' || c == '\n' || c == '\r' || c == '\x0c'

def skipSpace (cs : List Char) : List Char :=
  cs.dropWhile isSpace

def isSeparator (c : Char) : Bool :=
  c == ',' || c == '\x7b' || c == '\x7d' || c == '[' || c == ']'

def isKeyChar (c : Char) : Bool :=
  c.isAlphanum || c == '_' || c == '-'

def bare (cs : List Char) : Tree :=
  let cs := Text.trimBoth Text.isWhiteSpace cs
  match (if cs.contains '.' then Scalar.double? cs else none), Scalar.word? cs with
  | some d, _ => .number (.double d)
  | none, some i => .number (.int i)
  | none, none => .string (String.ofList cs)

def codePoint? (digits : Nat) (cs : List Char) : Option (Char × List Char) := do
  if cs.length < digits then none
  else
    let values ← (cs.take digits).mapM Json.Document.hexValue?
    let n := values.foldl (fun n v => n * 16 + v) 0
    if n.isValidChar then some (Char.ofNat n, cs.drop digits) else none

def quoted? : Nat → List Char → List Char → Option (String × List Char)
  | 0, _, _ => none
  | fuel + 1, found, cs =>
    match cs with
    | [] => none
    | '"' :: rest => some (String.ofList found.reverse, rest)
    | '\\' :: 'u' :: rest => do
      let (c, rest) ← codePoint? 4 rest
      quoted? fuel (c :: found) rest
    | '\\' :: 'U' :: rest => do
      let (c, rest) ← codePoint? 8 rest
      quoted? fuel (c :: found) rest
    | '\\' :: '/' :: _ => none
    | '\\' :: letter :: rest => do
      let c ← Json.Document.escaped? letter
      quoted? fuel (c :: found) rest
    | c :: rest => quoted? fuel (c :: found) rest

def key? (cs : List Char) : Option (String × List Char) :=
  match cs with
  | '"' :: rest => quoted? (rest.length + 1) [] rest
  | _ =>
    let name := cs.takeWhile isKeyChar
    if name.isEmpty then none else some (String.ofList name, cs.dropWhile isKeyChar)

mutual

/-- A value and what follows it. No more than three calls pass before a character is taken, so a
fuel of four for each character is enough. -/
def value? : Nat → List Char → Option (Tree × List Char)
  | 0, _ => none
  | fuel + 1, cs => do
    let cs := skipSpace cs
    let (found, rest) ← match cs with
      | 't' :: 'r' :: 'u' :: 'e' :: rest => some (Tree.bool true, rest)
      | 'f' :: 'a' :: 'l' :: 's' :: 'e' :: rest => some (Tree.bool false, rest)
      | '\x7b' :: rest => (entries? fuel rest).map fun result => (.object result.1, result.2)
      | '[' :: rest => (items? fuel rest).map fun result => (.array result.1, result.2)
      | '"' :: rest =>
        (quoted? (rest.length + 1) [] rest).map fun result => (.string result.1, result.2)
      | '\'' :: c :: '\'' :: rest => some (.string (String.singleton c), rest)
      | '\'' :: _ => none
      | cs => some (bare (cs.takeWhile (!isSeparator ·)), cs.dropWhile (!isSeparator ·))
    pure (found, skipSpace rest)

def items? : Nat → List Char → Option (List Tree × List Char)
  | 0, _ => none
  | _ + 1, ']' :: rest => some ([], rest)
  | fuel + 1, cs => do
    let (item, rest) ← value? fuel cs
    match rest with
    | ',' :: rest => do
      let (items, rest) ← items? fuel rest
      pure (item :: items, rest)
    | ']' :: rest => pure ([item], rest)
    | _ => none

def entries? : Nat → List Char → Option (List (String × Tree) × List Char)
  | 0, _ => none
  | _ + 1, '\x7d' :: rest => some ([], rest)
  | fuel + 1, cs => do
    let (name, rest) ← key? (skipSpace cs)
    match skipSpace rest with
    | '=' :: rest => do
      let (value, rest) ← value? fuel rest
      match rest with
      | ',' :: rest => do
        let (entries, rest) ← entries? fuel rest
        pure ((name, value) :: entries, rest)
      | '\x7d' :: rest => pure ([(name, value)], rest)
      | _ => none
    | _ => none

end

def read (s : String) : Tree :=
  let cs := s.toList
  match value? (4 * cs.length + 4) cs with
  | some (t, []) => t
  | _ => .string s

end RichAuthorization.Settings.Inline
