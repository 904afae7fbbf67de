/-!
The decimal digits of a natural number, and the number that some digits spell.
-/

namespace FlexFold.Decimal

/-- The character of a digit below ten. -/
def digitChar (d : Nat) : Char := Char.ofNat (48 + d)

/-- Put the digits of `n` in front of `tail`. Zero has no digit here. -/
def digitsBefore (n : Nat) (tail : List Char) : List Char :=
  if n = 0 then tail else digitsBefore (n / 10) (digitChar (n % 10) :: tail)
termination_by n

/-- The digits of `n` without leading zeros, and `0` for zero. -/
def digits (n : Nat) : List Char :=
  if n = 0 then ['0'] else digitsBefore n []

def natText (n : Nat) : String := String.ofList (digits n)

/-- The text of an integer: a minus sign if it is negative, then the digits. -/
def intText (i : Int) : String :=
  if i < 0 then String.ofList ('-' :: digits i.natAbs) else natText i.natAbs

/-- The number of decimal digits of `n`, none for zero. -/
def width (n : Nat) : Nat := (digitsBefore n []).length

/-- Whether a character is one of the ten digits. -/
def isDigit (c : Char) : Bool := '0' ≤ c && c ≤ '9'

/-- The number that a digit stands for. -/
def digitValue (c : Char) : Nat := c.toNat - 48

/-- The number that digits spell when they are read after a number `n`. -/
def readOnto (n : Nat) (ds : List Char) : Nat :=
  ds.foldl (fun n c => n * 10 + digitValue c) n

/-- The digits of `n`, filled up to `count` with zeros in front. -/
def padded (count n : Nat) : String :=
  let ds := digits n
  String.ofList (List.replicate (count - ds.length) '0' ++ ds)

def maxWord : Nat := Nat.pow 2 64 - 1

end FlexFold.Decimal
