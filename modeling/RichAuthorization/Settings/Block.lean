import RichAuthorization.Settings.Scalar
import RichAuthorization.Text.Blank

/-!
Configuration files.

A file holds a JSON object or a document in block style: entries `key: value` and items `- value`,
each on a line of its own, where what belongs to an entry or item is indented further. Lists may
stand at the indentation of their key. A value on a line is a JSON-like list or object, a quoted
text or a plain one, and a plain text is null, a truth value or a number if it reads as one. What
stands behind `#` is a comment.
-/

namespace RichAuthorization.Settings.Block

open Json (Tree)

structure Line where
  indent : Nat
  text : List Char

/-- Cuts off a comment. A quote opens a quoted text only where a value may begin. -/
def uncomment (quote : Option Char) (before : Char) : List Char → List Char
  | [] => []
  | c :: rest =>
    match quote with
    | some q => c :: uncomment (if c = q && before ≠ '\\' then none else quote) c rest
    | none =>
      if c = '#' && Text.isWhiteSpace before then []
      else if (c = '"' || c = '\'') && (Text.isWhiteSpace before || "[\x7b,:-".contains before) then
        c :: uncomment (some c) c rest
      else c :: uncomment none c rest

def lines (s : String) : List Line :=
  (s.splitOn "\n").filterMap fun line =>
    let cs := uncomment none ' ' line.toList
    let indent := (cs.takeWhile (· == ' ')).length
    let text := Text.trimBoth Text.isWhiteSpace cs
    if text.isEmpty || (indent = 0 && text = ['-', '-', '-']) then none else some ⟨indent, text⟩

def plain (cs : List Char) : Tree :=
  let s := String.ofList cs
  if ["", "~", "null", "Null", "NULL"].contains s then .null
  else if ["true", "True", "TRUE"].contains s then .bool true
  else if ["false", "False", "FALSE"].contains s then .bool false
  else
    let digits := (Scalar.sign cs).2
    if digits.length > 1 && digits.head? = some '0' && digits.all Json.Document.isDigit then
      .string s
    else
      match Scalar.word? cs, Scalar.double? cs with
      | some i, _ => .number (.int i)
      | none, some d => .number (.double d)
      | none, none => .string s

def singleQuoted? : List Char → List Char → Option (String × List Char)
  | _, [] => none
  | found, '\'' :: '\'' :: rest => singleQuoted? ('\'' :: found) rest
  | found, '\'' :: rest => some (String.ofList found.reverse, rest)
  | found, c :: rest => singleQuoted? (c :: found) rest

def doubleQuoted? (cs : List Char) : Option (String × List Char) :=
  let scan := Json.Document.scanString (cs.length + 1) (.ok []) cs
  match scan.read, scan.rest with
  | .ok s, .ok rest => some (s, rest)
  | _, _ => none

def isFlowEnd (c : Char) : Bool :=
  c == ',' || c == ']' || c == '\x7d' || c == '[' || c == '\x7b'

def flowPlain : List Char → List Char × List Char
  | [] => ([], [])
  | ':' :: [] => ([], [':'])
  | c :: rest =>
    if isFlowEnd c || (c = ':' && (rest.head?.all fun d => Text.isWhiteSpace d || isFlowEnd d)) then
      ([], c :: rest)
    else
      let (found, rest) := flowPlain rest
      (c :: found, rest)

def skipSpace (cs : List Char) : List Char :=
  cs.dropWhile Text.isWhiteSpace

mutual

def flow? : Nat → List Char → Option (Tree × List Char)
  | 0, _ => none
  | fuel + 1, cs =>
    match skipSpace cs with
    | '[' :: rest => (flowItems? fuel rest).map fun result => (.array result.1, result.2)
    | '\x7b' :: rest => (flowEntries? fuel rest).map fun result => (.object result.1, result.2)
    | '"' :: rest => (doubleQuoted? rest).map fun result => (.string result.1, result.2)
    | '\'' :: rest => (singleQuoted? [] rest).map fun result => (.string result.1, result.2)
    | cs =>
      let (found, rest) := flowPlain cs
      let text := Text.trimBoth Text.isWhiteSpace found
      if text.isEmpty then none else some (plain text, rest)

def flowItems? : Nat → List Char → Option (List Tree × List Char)
  | 0, _ => none
  | fuel + 1, cs =>
    match skipSpace cs with
    | ']' :: rest => some ([], rest)
    | cs => do
      let (item, rest) ← flow? fuel cs
      match skipSpace rest with
      | ',' :: rest => do
        let (items, rest) ← flowItems? fuel rest
        pure (item :: items, rest)
      | ']' :: rest => pure ([item], rest)
      | _ => none

def flowEntries? : Nat → List Char → Option (List (String × Tree) × List Char)
  | 0, _ => none
  | fuel + 1, cs =>
    match skipSpace cs with
    | '\x7d' :: rest => some ([], rest)
    | cs => do
      let (name, rest) ← match cs with
        | '"' :: rest => doubleQuoted? rest
        | '\'' :: rest => singleQuoted? [] rest
        | cs =>
          let (found, rest) := flowPlain cs
          some (String.ofList (Text.trimBoth Text.isWhiteSpace found), rest)
      match skipSpace rest with
      | ':' :: rest => do
        let (value, rest) ← flow? fuel rest
        match skipSpace rest with
        | ',' :: rest => do
          let (entries, rest) ← flowEntries? fuel rest
          pure ((name, value) :: entries, rest)
        | '\x7d' :: rest => pure ([(name, value)], rest)
        | _ => none
      | _ => none

end

/-- A value that fills the rest of a line. Values that continue on further lines, references and
tagged values are refused. -/
def lineValue? (cs : List Char) : Option Tree :=
  match cs with
  | [] => some .null
  | c :: _ =>
    if c = '[' || c = '\x7b' || c = '"' || c = '\'' then
      match flow? (4 * cs.length + 4) cs with
      | some (t, rest) => if (skipSpace rest).isEmpty then some t else none
      | none => none
    else if "&*!|>@%`".contains c then none
    else some (plain cs)

def keyed? (cs : List Char) : Option (String × List Char) :=
  match cs with
  | '"' :: rest => (doubleQuoted? rest).bind behindKey
  | '\'' :: rest => (singleQuoted? [] rest).bind behindKey
  | _ => (plainKey [] cs).bind behindKey
where
  plainKey (found : List Char) : List Char → Option (String × List Char)
    | [] => none
    | c :: rest =>
      if c = ':' && rest.head?.all Text.isWhiteSpace then
        some (String.ofList (Text.trimBoth Text.isWhiteSpace found.reverse), c :: rest)
      else plainKey (c :: found) rest
  behindKey (key : String × List Char) : Option (String × List Char) :=
    match skipSpace key.2 with
    | ':' :: rest => some (key.1, skipSpace rest)
    | _ => none

def item? (cs : List Char) : Option (List Char × Nat) :=
  match cs with
  | ['-'] => some ([], 1)
  | '-' :: ' ' :: rest =>
    let text := rest.dropWhile (· == ' ')
    some (text, cs.length - text.length)
  | _ => none

mutual

/-- The value that begins with the first line, and the lines behind it. Each call looks at a line or
takes one, so a fuel of four for each line, and for each item that is cut off its line, is enough.
-/
def node? : Nat → List Line → Option (Tree × List Line)
  | 0, _ => none
  | _, [] => none
  | fuel + 1, line :: rest =>
    if (item? line.text).isSome then
      (items? fuel line.indent (line :: rest)).map fun result => (.array result.1, result.2)
    else if (keyed? line.text).isSome then
      (entries? fuel line.indent (line :: rest)).map fun result => (.object result.1, result.2)
    else (lineValue? line.text).map fun t => (t, rest)

def items? : Nat → Nat → List Line → Option (List Tree × List Line)
  | 0, _, _ => none
  | _, _, [] => some ([], [])
  | fuel + 1, indent, line :: rest =>
    if line.indent < indent then some ([], line :: rest)
    else if indent < line.indent then none
    else
      match item? line.text with
      | none => some ([], line :: rest)
      | some (text, width) => do
        let (item, rest) ←
          if text.isEmpty then below? fuel (indent + 1) rest
          else node? fuel (⟨indent + width, text⟩ :: rest)
        let (items, rest) ← items? fuel indent rest
        pure (item :: items, rest)

def entries? : Nat → Nat → List Line → Option (List (String × Tree) × List Line)
  | 0, _, _ => none
  | _, _, [] => some ([], [])
  | fuel + 1, indent, line :: rest =>
    if line.indent < indent then some ([], line :: rest)
    else if indent < line.indent || (item? line.text).isSome then none
    else do
      let (key, text) ← keyed? line.text
      let (value, rest) ←
        if text.isEmpty then
          match rest with
          | next :: _ =>
            if next.indent = indent && (item? next.text).isSome then node? fuel rest
            else below? fuel (indent + 1) rest
          | [] => some (.null, [])
        else (lineValue? text).map fun t => (t, rest)
      let (entries, rest) ← entries? fuel indent rest
      pure ((key, value) :: entries, rest)

def below? : Nat → Nat → List Line → Option (Tree × List Line)
  | 0, _, _ => none
  | _, _, [] => some (.null, [])
  | fuel + 1, indent, line :: rest =>
    if line.indent < indent then some (.null, line :: rest) else node? fuel (line :: rest)

end

def read? (s : String) : Option Tree :=
  let found := lines s
  if found.isEmpty then some (.object [])
  else
    match node? (4 * s.length + 4) found with
    | some (t, []) => some t
    | _ => none

end RichAuthorization.Settings.Block
