/-!
Binary floating-point numbers of 64 bits, the finite ones, in exact arithmetic.

A number is `± significand · 2 ^ exponent`. Every number but the small ones has a significand of 53
bits, so a number has one representation, apart from the two signs of zero. `nearest` rounds any
positive rational, and a half to the even significand; products and quotients are rounded by it.
-/

namespace RichAuthorization.Json

def NormalParts (significand : Nat) (exponent : Int) : Prop :=
  significand < Nat.pow 2 53 ∧ -1074 ≤ exponent ∧ exponent ≤ 971 ∧
    (exponent = -1074 ∨ Nat.pow 2 52 ≤ significand)

instance (significand : Nat) (exponent : Int) : Decidable (NormalParts significand exponent) :=
  inferInstanceAs (Decidable (_ ∧ _))

structure Double where
  negative : Bool
  significand : Nat
  exponent : Int
  normal : NormalParts significand exponent
deriving DecidableEq

namespace Double

def zero (negative : Bool) : Double :=
  ⟨negative, 0, -1074, by decide⟩

instance : Inhabited Double := ⟨zero false⟩

def isZero (d : Double) : Bool :=
  d.significand = 0

def same (a b : Double) : Bool :=
  (a.isZero && b.isZero) || decide (a = b)

theorem same_refl (a : Double) : a.same a = true := by simp [same]

theorem same_comm (a b : Double) : a.same b = b.same a := by
  simp only [same, Bool.and_comm, eq_comm]

theorem same_trans {a b c : Double} (hab : a.same b = true) (hbc : b.same c = true) :
    a.same c = true := by
  simp only [same, Bool.or_eq_true, Bool.and_eq_true, decide_eq_true_eq] at hab hbc ⊢
  rcases hab with hab | rfl
  · rcases hbc with hbc | rfl
    · exact .inl ⟨hab.1, hbc.2⟩
    · exact .inl hab
  · exact hbc

def neg (d : Double) : Double :=
  { d with negative := !d.negative }

def roundDiv (num den : Nat) : Nat :=
  let quotient := num / den
  let twice := 2 * (num % den)
  if twice > den || (twice == den && quotient % 2 == 1) then quotient + 1 else quotient

def scaled (num den : Nat) (power : Int) : Nat × Nat :=
  (num * Nat.pow 2 power.toNat, den * Nat.pow 2 (-power).toNat)

def nearest (negative : Bool) (num den : Nat) (power : Int) : Option Double :=
  if num = 0 then some (zero negative)
  else
    let magnitude : Int := (num.log2 : Int) - den.log2 + power
    let low := max (magnitude - 53) (-1074)
    let unit := scaled num den (power - low)
    let exponent := if unit.1 / unit.2 < Nat.pow 2 53 then low else low + 1
    let unit := scaled num den (power - exponent)
    let significand := roundDiv unit.1 unit.2
    let (significand, exponent) :=
      if significand = Nat.pow 2 53 then (Nat.pow 2 52, exponent + 1) else (significand, exponent)
    if normal : NormalParts significand exponent then
      some ⟨negative, significand, exponent, normal⟩
    else none

def ofNat (n : Nat) : Option Double :=
  nearest false n 1 0

def mul (a b : Double) : Option Double :=
  nearest (a.negative != b.negative) (a.significand * b.significand) 1 (a.exponent + b.exponent)

def div (a b : Double) : Option Double :=
  nearest (a.negative != b.negative) a.significand b.significand (a.exponent - b.exponent)

example : nearest false 1 10 0 = some ⟨false, 7205759403792794, -56, by decide⟩ := by
  decide +kernel

example : nearest true 1 1 1024 = none := by decide +kernel

end Double

end RichAuthorization.Json
