import RichAuthorization.Json.Tree
import RichAuthorization.Json.Decimal
import RichAuthorization.Json.Document

/-!
Numbers as they are written in configuration.
-/

namespace RichAuthorization.Settings.Scalar

open Json (Number Double)
open Json.Document (isDigit spanDigits digitsValue)

def sign : List Char → Bool × List Char
  | '+' :: rest => (false, rest)
  | '-' :: rest => (true, rest)
  | cs => (false, cs)

def integer? (cs : List Char) : Option Int :=
  let (negative, digits) := sign cs
  if digits.isEmpty || !digits.all isDigit then none
  else
    let size : Int := digitsValue digits
    some (if negative then -size else size)

def word? (cs : List Char) : Option Int :=
  (integer? cs).filter fun i => -Int.pow 2 63 ≤ i && i < Int.pow 2 64

def exponent? : List Char → Option Int
  | [] => some 0
  | c :: rest => if c = 'e' || c = 'E' then integer? rest else none

def double? (cs : List Char) : Option Double := do
  let (negative, cs) := sign cs
  let (whole, cs) := spanDigits cs
  let (fraction, cs) := match cs with
    | '.' :: rest => spanDigits rest
    | _ => ([], cs)
  if whole.isEmpty && fraction.isEmpty then none
  else
    let exponent ← exponent? cs
    Double.ofDecimal negative (digitsValue (whole ++ fraction)) (exponent - fraction.length)

end RichAuthorization.Settings.Scalar
