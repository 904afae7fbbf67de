import FlexFold.Decimal.Binary64
import FlexFold.Decimal.Digits

/-!
The shortest decimal that reads back as a given double. Of two such decimals of one length the
nearer is taken, and of two equally near ones the one with an even last digit.
-/

namespace FlexFold.Decimal

/-- The number `digits * 10 ^ exponent`. -/
structure Scientific where
  digits : Nat
  exponent : Int
deriving DecidableEq, Repr

namespace Magnitude

/-- Four times the distance from zero to the lower end of the reals that round to `f`, in units
of `2 ^ (exponent - 2)`. The distance is smaller where the exponent changes. -/
def lowerBound (f : Magnitude) : Nat :=
  if f.significand = Nat.pow 2 52 ∧ minExponent < f.exponent then 4 * f.significand - 1
  else 4 * f.significand - 2

/-- The upper end in the same units. -/
def upperBound (f : Magnitude) : Nat := 4 * f.significand + 2

/-- The greatest `k` with `10 ^ k ≤ f`. -/
def decimalScale (f : Magnitude) : Int :=
  let num := f.significand * Nat.pow 2 f.exponent.toNat
  let den := Nat.pow 2 (-f.exponent).toNat
  if den ≤ num then (width (num / den) : Int) - 1
  else -(width ((den + num - 1) / num - 1) : Int)

/-- The number `d` for which `d * 10 ^ e` reads back as `f`, if the grid of `10 ^ e` has one. -/
def onGrid (f : Magnitude) (e : Int) : Option Nat :=
  let up := Nat.pow 2 (f.exponent - 2).toNat * Nat.pow 10 (-e).toNat
  let down := Nat.pow 2 (2 - f.exponent).toNat * Nat.pow 10 e.toNat
  let value := 4 * f.significand * up
  let inside (d : Nat) : Bool :=
    if f.significand % 2 = 0 then
      f.lowerBound * up ≤ d * down && d * down ≤ f.upperBound * up
    else f.lowerBound * up < d * down && d * down < f.upperBound * up
  let d := value / down
  if inside d && inside (d + 1) then
    if 2 * value < (2 * d + 1) * down then some d
    else if (2 * d + 1) * down < 2 * value then some (d + 1)
    else if d % 2 = 0 then some d else some (d + 1)
  else if inside d then some d
  else if inside (d + 1) then some (d + 1)
  else none

/-- Search the grids from `e` downwards, at most `count` of them. -/
def searchGrids (f : Magnitude) : Nat → Int → Scientific
  | 0, e => ⟨0, e⟩
  | count + 1, e =>
      match f.onGrid e with
      | some d => ⟨d, e⟩
      | none => searchGrids f count (e - 1)

/-- Drop the zeros at the end of the digits. -/
def dropZeros (s : Scientific) : Scientific :=
  if h : s.digits ≠ 0 ∧ s.digits % 10 = 0 then dropZeros ⟨s.digits / 10, s.exponent + 1⟩ else s
termination_by s.digits
decreasing_by omega

/-- The shortest decimal that reads back as `f`. Seventeen digits are always enough. -/
def shortest (f : Magnitude) : Scientific :=
  if f.significand = 0 then ⟨0, 0⟩ else dropZeros (f.searchGrids 17 f.decimalScale)

end Magnitude

end FlexFold.Decimal
