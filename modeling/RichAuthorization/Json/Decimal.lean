import RichAuthorization.Json.Double

/-!
Doubles in decimal.

`Double.ofDecimal` rounds a decimal number once. `Double.ofScaledDecimal` reads it in two steps, as
number literals of a JSON text are read: the digits and the power of ten are rounded to doubles, and
then their product or quotient is. `Double.shortest` gives the fewest digits that read back, the
nearest of these and an exact tie to the even digit; `Double.text` writes them down.
-/

namespace RichAuthorization.Json.Double

def ofDecimal (negative : Bool) (digits : Nat) (exponent : Int) : Option Double :=
  if digits = 0 then some (zero negative)
  else if exponent > 400 then none
  else if exponent < -1200 - digits.log2 then some (zero negative)
  else nearest negative (digits * Nat.pow 10 exponent.toNat) (Nat.pow 10 (-exponent).toNat) 0

def maxPowerOfTen : Nat := 308

/-- Scales by a power of ten in steps of at most `10 ^ 308`. Two full steps down take every number
of 64 bits to zero, so three steps are enough. -/
def scaleByTen (value : Double) (exponent : Int) : Nat → Option Double
  | 0 => some value
  | steps + 1 =>
    if exponent.natAbs ≤ maxPowerOfTen then do
      let power ← ofNat (Nat.pow 10 exponent.natAbs)
      if exponent < 0 then value.div power else value.mul power
    else if value.isZero then some value
    else if exponent < 0 then do
      let power ← ofNat (Nat.pow 10 maxPowerOfTen)
      scaleByTen (← value.div power) (exponent + maxPowerOfTen) steps
    else none

def ofScaledDecimal (negative : Bool) (digits : Nat) (exponent : Int) : Option Double := do
  let value ← ofNat digits
  let value ← scaleByTen value exponent 3
  pure (if negative then value.neg else value)

def ratio (n : Nat) (ten two : Int) : Nat × Nat :=
  (n * Nat.pow 10 ten.toNat * Nat.pow 2 two.toNat,
    Nat.pow 10 (-ten).toNat * Nat.pow 2 (-two).toNat)

/-- The numbers that round to a double other than zero, in quarters of the last place: the lower
end, the double itself and the upper end. The ends belong to it when the significand is even. -/
def roundingRange (d : Double) : Nat × Nat × Nat :=
  let middle := 4 * d.significand
  let low := if d.significand = Nat.pow 2 52 && d.exponent ≠ -1074 then middle - 1 else middle - 2
  (low, middle, middle + 2)

def onGrid (d : Double) (ten : Int) : Option Nat :=
  let (low, middle, high) := d.roundingRange
  let parts (quarters : Nat) := ratio quarters (-ten) (d.exponent - 2)
  let (num, den) := parts middle
  let below := num / den
  let reads (candidate : Nat) : Bool :=
    let (lowNum, lowDen) := parts low
    let (highNum, highDen) := parts high
    if d.significand % 2 = 0 then lowNum ≤ candidate * lowDen && candidate * highDen ≤ highNum
    else lowNum < candidate * lowDen && candidate * highDen < highNum
  match reads below, reads (below + 1) with
  | true, true => some (roundDiv num den)
  | true, false => some below
  | false, true => some (below + 1)
  | false, false => none

def searchGrid (d : Double) (ten : Int) : Nat → Nat × Int
  | 0 => (0, ten)
  | steps + 1 =>
    match d.onGrid ten with
    | some digits => (digits, ten)
    | none => d.searchGrid (ten - 1) steps

/-- The shortest decimal `(digits, ten)`, standing for `digits · 10 ^ ten`, that reads back as the
double. The search starts above the number and ends after at most seventeen digits. -/
def shortest (d : Double) : Nat × Int :=
  if d.isZero then (0, 0)
  else d.searchGrid ((d.significand.log2 + 1 + d.exponent) * 30103 / 100000 + 2) 24

structure Style where
  positional : Int × Int
  plus : String

def style : Style := ⟨(-5, 15), "+"⟩

def zeros (n : Nat) : String :=
  String.ofList (List.replicate n '0')

def positionalText (digits : String) (ten : Int) : String :=
  let whole : Int := digits.length + ten
  if 0 ≤ ten then digits ++ zeros ten.toNat ++ ".0"
  else if 0 < whole then
    let cs := digits.toList
    String.ofList (cs.take whole.toNat) ++ "." ++ String.ofList (cs.drop whole.toNat)
  else "0." ++ zeros (-whole).toNat ++ digits

def scientificText (digits : String) (leading : Int) : String :=
  let cs := digits.toList
  let rest := cs.drop 1
  let fraction := if rest.isEmpty then "" else "." ++ String.ofList rest
  let sign := if leading < 0 then "-" else style.plus
  String.ofList (cs.take 1) ++ fraction ++ "e" ++ sign ++ toString leading.natAbs

def text (d : Double) : String :=
  let sign := if d.negative then "-" else ""
  if d.isZero then sign ++ "0.0"
  else
    let (number, ten) := d.shortest
    let digits := toString number
    let leading : Int := ten + digits.length - 1
    if style.positional.1 ≤ leading && leading ≤ style.positional.2 then
      sign ++ positionalText digits ten
    else sign ++ scientificText digits leading

end RichAuthorization.Json.Double
