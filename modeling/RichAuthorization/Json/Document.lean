import RichAuthorization.Json.Tree
import RichAuthorization.Json.Decimal

/-!
What a JSON text says, read as far as it can be read.

A document keeps the members of an object in the order of the text, and a fault stands at the place
where it occurs. A typed reader walks the document from left to right, so of two faults the one that
comes first in the text is met first, and a value of the wrong kind is met before a fault inside it.

A value that nobody asks for is skipped: its numbers may be out of range and its texts may hold half
a surrogate pair. Numbers and texts therefore say both what reading and what skipping them finds.
-/

namespace RichAuthorization.Json

inductive Fault where
  | malformed
  | truncated
deriving DecidableEq

inductive Document where
  | null
  | bool (value : Bool)
  | number (read : Except Fault Number) (skip : Option Fault)
  | string (read : Except Fault String) (skip : Option Fault)
  /-- The items up to the closing bracket, or up to the fault that stands in its place. -/
  | array (items : List Document) (stop : Option Fault)
  /-- Names and values. What stands in the place of a name may be any value. -/
  | object (members : List (Document × Document)) (stop : Option Fault)
  | broken (fault : Fault)
  | absent

namespace Document

instance : Inhabited Document := ⟨.null⟩

mutual

def skipFault? : Document → Option Fault
  | .number _ skip => skip
  | .string _ skip => skip
  | .array items stop => (itemsSkipFault? items).or stop
  | .object members stop => (membersSkipFault? members).or stop
  | .broken fault => some fault
  | .absent => some .truncated
  | _ => none

def itemsSkipFault? : List Document → Option Fault
  | [] => none
  | d :: rest => d.skipFault?.or (itemsSkipFault? rest)

def membersSkipFault? : List (Document × Document) → Option Fault
  | [] => none
  | (_, d) :: rest => d.skipFault?.or (membersSkipFault? rest)

end

mutual

def ofTree : Tree → Document
  | .null => .null
  | .bool b => .bool b
  | .number n => .number (.ok n) none
  | .string s => .string (.ok s) none
  | .array items => .array (ofItems items) none
  | .object members => .object (ofMembers members) none

def ofItems : List Tree → List Document
  | [] => []
  | t :: rest => ofTree t :: ofItems rest

def ofMembers : List (String × Tree) → List (Document × Document)
  | [] => []
  | (name, t) :: rest => (.string (.ok name) none, ofTree t) :: ofMembers rest

end

/-- What a scan of a number or a text finds: its value, and the text behind it for those who skip
it. -/
structure Scan (α : Type) where
  read : Except Fault α
  rest : Except Fault (List Char)

namespace Scan

def skip {α : Type} (scan : Scan α) : Option Fault :=
  match scan.rest with
  | .ok _ => none
  | .error fault => some fault

def rest? {α : Type} (scan : Scan α) : Option (List Char) :=
  scan.rest.toOption

end Scan

def isDigit (c : Char) : Bool :=
  '0' ≤ c && c ≤ '9'

def digitValue (c : Char) : Nat :=
  c.toNat - '0'.toNat

def spanDigits (cs : List Char) : List Char × List Char :=
  (cs.takeWhile isDigit, cs.dropWhile isDigit)

def maxSignificand : Nat := Nat.pow 2 64 - 1

def appendDigits (significand : Nat) : List Char → Nat × Nat
  | [] => (significand, 0)
  | c :: rest =>
    let longer := significand * 10 + digitValue c
    if longer ≤ maxSignificand then
      let (result, count) := appendDigits longer rest
      (result, count + 1)
    else (significand, 0)

def digitsValue (digits : List Char) : Nat :=
  digits.foldl (fun n c => n * 10 + digitValue c) 0

structure Literal where
  negative : Bool
  whole : List Char
  fraction : Option (List Char)
  exponent : Option Int

/-- A literal is an integer if it has neither fraction nor exponent, fits 64 bits with or without a
sign, and is not `-0`. Any other literal is a double; one beyond the largest double is a fault. -/
def Literal.value (literal : Literal) : Except Fault Number :=
  let whole := digitsValue literal.whole
  if literal.fraction.isNone && literal.exponent.isNone && !literal.negative
      && whole ≤ maxSignificand then
    .ok (.int whole)
  else if literal.fraction.isNone && literal.exponent.isNone && literal.negative
      && 0 < whole && whole ≤ Nat.pow 2 63 then
    .ok (.int (-whole))
  else
    let (significand, kept) := appendDigits 0 literal.whole
    let dropped := literal.whole.length - kept
    let (significand, fractional) := appendDigits significand (literal.fraction.getD [])
    let exponent : Int := dropped - fractional + literal.exponent.getD 0
    match Double.ofScaledDecimal literal.negative significand exponent with
    | some d => .ok (.double d)
    | none => .error .malformed

def brokenLiteral (rest : List Char) : Scan Number :=
  ⟨.error (if rest.isEmpty then .truncated else .malformed), .error .malformed⟩

def scanExponent (literal : Literal) (cs : List Char) : Scan Number :=
  let (negative, cs) :=
    match cs with
    | '+' :: rest => (false, rest)
    | '-' :: rest => (true, rest)
    | _ => (false, cs)
  let (digits, rest) := spanDigits cs
  if digits.isEmpty then brokenLiteral rest
  else
    let size : Int := digitsValue digits
    ⟨{ literal with exponent := some (if negative then -size else size) }.value, .ok rest⟩

def scanTail (literal : Literal) (cs : List Char) : Scan Number :=
  match cs with
  | 'e' :: rest => scanExponent literal rest
  | 'E' :: rest => scanExponent literal rest
  | _ => ⟨literal.value, .ok cs⟩

def scanFraction (literal : Literal) (cs : List Char) : Scan Number :=
  match cs with
  | '.' :: rest =>
    let (digits, rest) := spanDigits rest
    if digits.isEmpty then brokenLiteral rest
    else scanTail { literal with fraction := some digits } rest
  | _ => scanTail literal cs

def scanNumber (cs : List Char) : Scan Number :=
  let (negative, cs) :=
    match cs with
    | '-' :: rest => (true, rest)
    | _ => (false, cs)
  let (digits, rest) := spanDigits cs
  match digits with
  | [] => brokenLiteral rest
  | '0' :: _ :: _ => ⟨.error .malformed, .error .malformed⟩
  | _ => scanFraction ⟨negative, digits, none, none⟩ rest

def hexValue? (c : Char) : Option Nat :=
  if isDigit c then some (digitValue c)
  else if 'a' ≤ c && c ≤ 'f' then some (c.toNat - 'a'.toNat + 10)
  else if 'A' ≤ c && c ≤ 'F' then some (c.toNat - 'A'.toNat + 10)
  else none

/-- The number of four hexadecimal digits, and what follows. With less than four bytes left the text
is cut off, whatever they are. -/
def scanHex (cs : List Char) : Except Fault (Nat × List Char) :=
  match (cs.take 4).mapM hexValue? with
  | some [a, b, c, d] => .ok (((a * 16 + b) * 16 + c) * 16 + d, cs.drop 4)
  | _ =>
    let bytes := (cs.take 4).foldl (fun bytes c => bytes + c.utf8Size) 0
    .error (if 4 ≤ bytes then .malformed else .truncated)

def isLeadingSurrogate (n : Nat) : Bool :=
  0xD800 ≤ n && n ≤ 0xDBFF

def isTrailingSurrogate (n : Nat) : Bool :=
  0xDC00 ≤ n && n ≤ 0xDFFF

def unitChar (unit : Nat) (rest : List Char) : Except Fault (Char × List Char) :=
  if isTrailingSurrogate unit then .error .malformed
  else if isLeadingSurrogate unit then
    match rest with
    | [] => .error .truncated
    | '\\' :: [] => .error .truncated
    | '\\' :: 'u' :: rest => do
      let (trailing, rest) ← scanHex rest
      if isTrailingSurrogate trailing then
        pure (Char.ofNat (0x10000 + (unit - 0xD800) * 0x400 + (trailing - 0xDC00)), rest)
      else .error .malformed
    | _ => .error .malformed
  else .ok (Char.ofNat unit, rest)

def escaped? (c : Char) : Option Char :=
  match c with
  | '"' => some '"'
  | '\\' => some '\\'
  | '/' => some '/'
  | 'b' => some '\x08'
  | 'f' => some '\x0c'
  | 'n' => some '\n'
  | 'r' => some '\r'
  | 't' => some '\t'
  | _ => none

def endScan (read : Except Fault (List Char)) (fault : Fault) : Scan String :=
  ⟨read.bind fun _ => .error fault, .error fault⟩

/-- A text, from behind its opening quote on. `read` is what was read so far, last character first.
Every step takes a character, so a fuel of one more than the characters is enough. -/
def scanString : Nat → Except Fault (List Char) → List Char → Scan String
  | 0, read, _ => endScan read .truncated
  | fuel + 1, read, cs =>
    match cs with
    | [] => endScan read .truncated
    | '"' :: rest => ⟨read.map fun found => String.ofList found.reverse, .ok rest⟩
    | '\\' :: [] => endScan read .truncated
    | '\\' :: 'u' :: rest =>
      match scanHex rest with
      | .error fault => endScan read fault
      | .ok (unit, rest) =>
        match unitChar unit rest with
        | .error fault => scanString fuel (read.bind fun _ => .error fault) rest
        | .ok (c, rest) => scanString fuel (read.map (c :: ·)) rest
    | '\\' :: letter :: rest =>
      match escaped? letter with
      | none => endScan read .malformed
      | some c => scanString fuel (read.map (c :: ·)) rest
    | c :: rest =>
      if c.toNat < 0x20 then endScan read .malformed
      else scanString fuel (read.map (c :: ·)) rest

def isSpace (c : Char) : Bool :=
  c == ' ' || c == '\n' || c == '\t' || c == '\r'

def skipSpace (cs : List Char) : List Char :=
  cs.dropWhile isSpace

def scanWord (value : Document) : List Char → List Char → Document × Option (List Char)
  | [], cs => (value, some cs)
  | _ :: _, [] => (.broken .truncated, none)
  | letter :: letters, c :: rest =>
    if c = letter then scanWord value letters rest else (.broken .malformed, none)

mutual

/-- The value at the front, and what follows it if skipping the value gets there. No more than three
calls pass before a character is taken, so a fuel of four for each character is enough, and there is
always one left for each character of a text. -/
def scanValue : Nat → List Char → Document × Option (List Char)
  | 0, _ => (.absent, none)
  | fuel + 1, cs =>
    match skipSpace cs with
    | [] => (.absent, none)
    | 'n' :: rest => scanWord .null ['u', 'l', 'l'] rest
    | 't' :: rest => scanWord (.bool true) ['r', 'u', 'e'] rest
    | 'f' :: rest => scanWord (.bool false) ['a', 'l', 's', 'e'] rest
    | '"' :: rest =>
      let scan := scanString fuel (.ok []) rest
      (.string scan.read scan.skip, scan.rest?)
    | '[' :: rest =>
      let (items, stop, rest) := scanItems fuel true rest
      (.array items stop, rest)
    | '\x7b' :: rest =>
      let (members, stop, rest) := scanMembers fuel true rest
      (.object members stop, rest)
    | c :: rest =>
      if c = '-' || isDigit c then
        let scan := scanNumber (c :: rest)
        (.number scan.read scan.skip, scan.rest?)
      else (.broken .malformed, none)

def scanItems : Nat → Bool → List Char → List Document × Option Fault × Option (List Char)
  | 0, _, _ => ([], some .truncated, none)
  | fuel + 1, first, cs =>
    match skipSpace cs with
    | [] => ([], some .truncated, none)
    | ']' :: rest => ([], none, some rest)
    | c :: rest =>
      if first then scanItem fuel (c :: rest)
      else if c = ',' then
        match skipSpace rest with
        | ']' :: _ => ([], some .malformed, none)
        | rest => scanItem fuel rest
      else ([], some .malformed, none)

def scanItem : Nat → List Char → List Document × Option Fault × Option (List Char)
  | 0, _ => ([], some .truncated, none)
  | fuel + 1, cs =>
    match scanValue fuel cs with
    | (d, none) => ([d], none, none)
    | (d, some rest) =>
      let (items, stop, rest) := scanItems fuel false rest
      (d :: items, stop, rest)

def scanMembers : Nat → Bool → List Char →
    List (Document × Document) × Option Fault × Option (List Char)
  | 0, _, _ => ([], some .truncated, none)
  | fuel + 1, first, cs =>
    match skipSpace cs with
    | [] => ([], some .truncated, none)
    | '\x7d' :: rest => ([], none, some rest)
    | c :: rest =>
      if first then scanMember fuel (c :: rest)
      else if c = ',' then
        match skipSpace rest with
        | '\x7d' :: _ => ([], some .malformed, none)
        | rest => scanMember fuel rest
      else ([], some .malformed, none)

/-- One member and those behind it. A value that stands in the place of the name is kept, but
nothing behind it is. -/
def scanMember : Nat → List Char → List (Document × Document) × Option Fault × Option (List Char)
  | 0, _ => ([], some .truncated, none)
  | fuel + 1, cs =>
    match scanValue fuel cs with
    | (.absent, _) => ([(.absent, .absent)], none, none)
    | (.string read none, some rest) =>
      let name := Document.string read none
      match skipSpace rest with
      | [] => ([(name, .absent)], none, none)
      | ':' :: rest =>
        match scanValue fuel rest with
        | (d, none) => ([(name, d)], none, none)
        | (d, some rest) =>
          let (members, stop, rest) := scanMembers fuel false rest
          ((name, d) :: members, stop, rest)
      | _ => ([(name, .broken .malformed)], none, none)
    | (.string read (some fault), _) => ([(.string read (some fault), .broken fault)], none, none)
    | (d, _) => ([(d, .broken .malformed)], none, none)

end

def ofText (s : String) : Document × Option Fault :=
  let cs := s.toList
  match scanValue (4 * cs.length + 4) cs with
  | (d, none) => (d, none)
  | (d, some rest) => (d, if (skipSpace rest).isEmpty then none else some .malformed)

end Document

end RichAuthorization.Json
