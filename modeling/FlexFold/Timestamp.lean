import FlexFold.Decimal.Digits
import FlexFold.Text.Blank

/-!
Points in time and their text after RFC 3339. Times are kept in universal time with nanoseconds;
they are read with any offset and written with the letter `Z`.
-/

namespace FlexFold

/-- A second since the beginning of 1970, and nanoseconds within it. A leap second is a second
with more than `10 ^ 9` nanoseconds. -/
structure Timestamp where
  seconds : Int
  nanos : Nat := 0
deriving DecidableEq, Repr

namespace Timestamp

open Decimal (padded natText isDigit readOnto)

/-! ### The calendar -/

/-- The days from the beginning of 1970 to a day of the Gregorian calendar. Years are counted
from March, so that the day that is sometimes missing comes last. -/
def daysOfDate (year : Int) (month day : Nat) : Int :=
  let y := if month ≤ 2 then year - 1 else year
  let era := y.fdiv 400
  let yearOfEra := y - era * 400
  let monthFromMarch : Int := if 2 < month then month - 3 else month + 9
  let dayOfYear := (153 * monthFromMarch + 2) / 5 + day - 1
  let dayOfEra := yearOfEra * 365 + yearOfEra / 4 - yearOfEra / 100 + dayOfYear
  era * 146097 + dayOfEra - 719468

/-- The year, month and day that are some days after the beginning of 1970. -/
def dateOfDays (days : Int) : Int × Nat × Nat :=
  let z := days + 719468
  let era := z.fdiv 146097
  let dayOfEra := z - era * 146097
  let yearOfEra := (dayOfEra - dayOfEra / 1460 + dayOfEra / 36524 - dayOfEra / 146096) / 365
  let dayOfYear := dayOfEra - (365 * yearOfEra + yearOfEra / 4 - yearOfEra / 100)
  let monthFromMarch := (5 * dayOfYear + 2) / 153
  let day := dayOfYear - (153 * monthFromMarch + 2) / 5 + 1
  let month := if monthFromMarch < 10 then monthFromMarch + 3 else monthFromMarch - 9
  let year := yearOfEra + era * 400
  (if month ≤ 2 then year + 1 else year, month.toNat, day.toNat)

/-- Whether a year has a 29th of February. -/
def isLeapYear (year : Int) : Bool :=
  year % 4 == 0 && (year % 100 != 0 || year % 400 == 0)

/-- The number of days of a month. -/
def daysInMonth (year : Int) (month : Nat) : Nat :=
  if month = 2 then (if isLeapYear year then 29 else 28)
  else if month = 4 ∨ month = 6 ∨ month = 9 ∨ month = 11 then 30
  else 31

/-! ### Writing -/

/-- A year of four digits; other years have a sign and at least four digits. -/
def yearText (year : Int) : String :=
  if 0 ≤ year ∧ year ≤ 9999 then padded 4 year.toNat
  else (if year < 0 then "-" else "+") ++ padded 4 year.natAbs

/-- The fraction of a second in 0, 3, 6 or 9 digits, the fewest that lose nothing. -/
def fractionText (nanos : Nat) : String :=
  if nanos = 0 then ""
  else if nanos % 1000000 = 0 then "." ++ padded 3 (nanos / 1000000)
  else if nanos % 1000 = 0 then "." ++ padded 6 (nanos / 1000)
  else "." ++ padded 9 nanos

def text (t : Timestamp) : String :=
  let days := t.seconds.fdiv 86400
  let second := (t.seconds - days * 86400).toNat
  let (year, month, day) := dateOfDays days
  let leap := t.nanos / 1000000000
  yearText year ++ "-" ++ padded 2 month ++ "-" ++ padded 2 day ++ "T" ++
    padded 2 (second / 3600) ++ ":" ++ padded 2 (second / 60 % 60) ++ ":" ++
    padded 2 (second % 60 + leap) ++ fractionText (t.nanos % 1000000000) ++ "Z"

/-! ### Reading -/

inductive Fault where
  | tooShort
  | tooLong
  | invalid
  | outOfRange
deriving DecidableEq, Repr

def Fault.message : Fault → String
  | .tooShort => "premature end of input"
  | .tooLong => "trailing input"
  | .invalid => "input contains invalid characters"
  | .outOfRange => "input is out of range"

/-- What a step returns: what it read and the characters that are left. -/
abbrev Step (α : Type) := Except Fault (α × List Char)

def skipBlanks (s : List Char) : List Char := s.dropWhile Text.isBlank

/-- A number of at least one digit and at most `width` of them, if that is bounded. -/
def number (width : Option Nat) (s : List Char) : Step Nat :=
  let bounded := match width with
    | some n => s.take n
    | none => s
  match bounded.takeWhile isDigit with
  | [] => .error (if s.isEmpty then .tooShort else .invalid)
  | ds =>
      let n := readOnto 0 ds
      if Nat.pow 2 63 ≤ n then .error .outOfRange else .ok (n, s.drop ds.length)

/-- A number between two bounds, after blanks. -/
def field (low high : Nat) (s : List Char) : Step Nat :=
  match number (some 2) (skipBlanks s) with
  | .error e => .error e
  | .ok (n, t) => if low ≤ n ∧ n ≤ high then .ok (n, t) else .error .outOfRange

/-- A year: four digits, or a sign and any number of them. -/
def year (s : List Char) : Step Int :=
  let inRange (y : Int) (t : List Char) : Step Int :=
    if -2147483648 ≤ y ∧ y ≤ 2147483647 then .ok (y, t) else .error .outOfRange
  match skipBlanks s with
  | '-' :: t =>
      match number none t with
      | .error e => .error e
      | .ok (n, u) => inRange (-(n : Int)) u
  | '+' :: t =>
      match number none t with
      | .error e => .error e
      | .ok (n, u) => inRange n u
  | t =>
      match number (some 4) t with
      | .error e => .error e
      | .ok (n, u) => inRange n u

/-- A separator that has to come next, after blanks. -/
def separator (c : Char) (s : List Char) : Except Fault (List Char) :=
  match skipBlanks s with
  | [] => .error .tooShort
  | d :: t => if d = c then .ok t else .error .invalid

/-- A fraction of a second in nanoseconds. Digits after the ninth are dropped. -/
def fraction (s : List Char) : Step Nat :=
  match s with
  | '.' :: t =>
      match number (some 9) t with
      | .error e => .error e
      | .ok (n, u) => .ok (n * Nat.pow 10 (9 - (t.length - u.length)), u.dropWhile isDigit)
  | _ => .ok (0, s)

def twoDigits (s : List Char) : Except Fault (Nat × Nat × List Char) :=
  match s with
  | a :: b :: t =>
      if isDigit a ∧ isDigit b then .ok (Decimal.digitValue a, Decimal.digitValue b, t)
      else .error .invalid
  | [c] => .error (if c.utf8Size < 2 then .tooShort else .invalid)
  | [] => .error .tooShort

/-- The hours and minutes of an offset in seconds. -/
def offsetValue (negative : Bool) (s : List Char) : Step Int :=
  match twoDigits s with
  | .error e => .error e
  | .ok (h₁, h₂, t) =>
      match twoDigits (t.dropWhile fun c => c == ':' || Text.isBlank c) with
      | .error e => .error e
      | .ok (m₁, m₂, u) =>
          if 6 ≤ m₁ then .error .outOfRange
          else
            let seconds : Int := ((h₁ * 10 + h₂) * 3600 + (m₁ * 10 + m₂) * 60 : Nat)
            .ok (if negative then -seconds else seconds, u)

/-- The offset from universal time: `Z`, `UTC`, or a sign with hours and minutes. -/
def offset (s : List Char) : Step Int :=
  match s with
  | [] => .error .tooShort
  | c :: t =>
      if (s.take 3).map Char.toUpper = ['U', 'T', 'C'] then .ok (0, s.drop 3)
      else if c = 'Z' ∨ c = 'z' then .ok (0, t)
      else if c = '+' then offsetValue false t
      else if c = '-' ∨ c = '\u2212' then offsetValue true t
      else .error .invalid

/-- The point in time that the parts of a text name. -/
def ofParts (year : Int) (month day hour minute second nanos : Nat) (offset : Int) :
    Except Fault Timestamp :=
  if daysInMonth year month < day ∨ 262142 < year ∨ year < -262143 ∨
      86400 ≤ offset.natAbs then .error .outOfRange
  else
    let leap := second / 60
    .ok {
      seconds := daysOfDate year month day * 86400 +
        ((hour * 3600 + minute * 60 + (second - leap) : Nat) : Int) - offset
      nanos := nanos + leap * 1000000000 }

/-- Read a time. Blanks may stand before each part, and a blank or either letter between the date
and the time. -/
def parse (text : String) : Except Fault Timestamp := do
  let (y, s) ← year text.toList
  let s ← separator '-' s
  let (month, s) ← field 1 12 s
  let s ← separator '-' s
  let (day, s) ← field 1 31 s
  let s ← match s with
    | [] => .error .tooShort
    | c :: t => if c = 'T' ∨ c = 't' ∨ c = ' ' then .ok t else .error .invalid
  let (hour, s) ← field 0 23 s
  let s ← separator ':' s
  let (minute, s) ← field 0 59 s
  let s ← separator ':' s
  let (second, s) ← field 0 60 s
  let (nanos, s) ← fraction s
  let (off, s) ← offset (skipBlanks s)
  if (skipBlanks s).isEmpty then ofParts y month day hour minute second nanos off
  else .error .tooLong

end Timestamp

end FlexFold
