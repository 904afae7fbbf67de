/-!
Finite numbers of the IEEE 754 format `binary64`, computed exactly: every operation takes the
true result as a quotient of natural numbers and rounds it to the nearest double, a half to the
even neighbour.
-/

namespace FlexFold.Decimal

/-- The number `(-1) ^ negative * significand * 2 ^ exponent`. Those that `Magnitude.nearest`
returns have a significand below `2 ^ 53` that is at least `2 ^ 52`, or the exponent `-1074`. -/
structure Magnitude where
  significand : Nat
  exponent : Int
deriving DecidableEq, Repr

namespace Magnitude

def minExponent : Int := -1074

/-- The greatest exponent of a double. -/
def maxExponent : Int := 971

def zero : Magnitude := ⟨0, minExponent⟩

/-- The integer nearest to `num / den`, a half to the even one. -/
def roundHalfEven (num den : Nat) : Nat :=
  let q := num / den
  let r := num % den
  if 2 * r < den then q
  else if den < 2 * r then q + 1
  else if q % 2 = 0 then q else q + 1

/-- The greatest `e` with `2 ^ e ≤ num / den`. -/
def scaleOf (num den : Nat) : Int :=
  let e : Int := (num.log2 : Int) - (den.log2 : Int)
  if den * Nat.pow 2 e.toNat ≤ num * Nat.pow 2 (-e).toNat then e else e - 1

/-- The double nearest to `num / den`, or `none` if it lies beyond the greatest double. -/
def nearest (num den : Nat) : Option Magnitude :=
  if num = 0 then some zero
  else
    let e := max (scaleOf num den - 52) minExponent
    let m := roundHalfEven (num * Nat.pow 2 (-e).toNat) (den * Nat.pow 2 e.toNat)
    let rounded : Magnitude := if m = Nat.pow 2 53 then ⟨Nat.pow 2 52, e + 1⟩ else ⟨m, e⟩
    if maxExponent < rounded.exponent then none else some rounded

/-- The double nearest to `num / den * 2 ^ shift`. -/
def nearestShifted (num den : Nat) (shift : Int) : Option Magnitude :=
  nearest (num * Nat.pow 2 shift.toNat) (den * Nat.pow 2 (-shift).toNat)

def mul (a b : Magnitude) : Option Magnitude :=
  nearestShifted (a.significand * b.significand) 1 (a.exponent + b.exponent)

/-- The rounded quotient of `a` by a number that is not zero. -/
def div (a b : Magnitude) : Option Magnitude :=
  nearestShifted a.significand b.significand (a.exponent - b.exponent)

/-- The double nearest to a power of ten. -/
def powerOfTen (k : Nat) : Option Magnitude := nearest (Nat.pow 10 k) 1

/-- The greatest power of ten below the greatest double. -/
def maxTens : Nat := 308

/-- Divide `count` times by the greatest power of ten. Zero stays zero. -/
def divideBySteps (f : Magnitude) : Nat → Option Magnitude
  | 0 => some f
  | count + 1 =>
      if f.significand = 0 then some f
      else ((powerOfTen maxTens).bind f.div).bind fun g => g.divideBySteps count

/-- `f * 10 ^ exponent`, rounded after each multiplication or division by one rounded power of
ten, or `none` beyond the greatest double. Only exponents below `-308` take several divisions. -/
def scale (f : Magnitude) (exponent : Int) : Option Magnitude :=
  if f.significand = 0 then some f
  else if 0 ≤ exponent then
    if maxTens < exponent.toNat then none
    else (powerOfTen exponent.toNat).bind f.mul
  else
    let n := (-exponent).toNat
    let count := (n - 1) / maxTens
    (f.divideBySteps count).bind fun g => (powerOfTen (n - count * maxTens)).bind g.div

/-- The double that is written with these decimal digits and this exponent: the digits are
rounded first, then the result is scaled. -/
def ofDecimal (significand : Nat) (exponent : Int) : Option Magnitude :=
  (nearest significand 1).bind fun f => f.scale exponent

end Magnitude

/-- A finite double with its sign. Zero has two signs. -/
structure Binary64 where
  negative : Bool
  magnitude : Magnitude
deriving DecidableEq, Repr

end FlexFold.Decimal
