import FlexFold.Decimal.Shortest
import FlexFold.Json.Value

/-!
The text of a JSON value, compact or laid out over several lines. Every function puts what it
prints in front of the text that follows.
-/

namespace FlexFold.Json

open Decimal (Binary64 Scientific digits)

/-- How the parts of arrays and objects are separated. -/
inductive Layout where
  /-- No blank anywhere. -/
  | compact
  /-- One part a line, two spaces for each level, one space after a colon. -/
  | pretty
deriving DecidableEq, Repr

namespace Layout

/-- Begin a new line at a level of nesting. -/
def lineBefore (layout : Layout) (depth : Nat) (tail : List Char) : List Char :=
  match layout with
  | .compact => tail
  | .pretty => '\n' :: (List.replicate (2 * depth) ' ' ++ tail)

/-- The colon between a key and its value. -/
def colonBefore (layout : Layout) (tail : List Char) : List Char :=
  match layout with
  | .compact => ':' :: tail
  | .pretty => ':' :: ' ' :: tail

end Layout

/-- A double is written in positional notation if `10 ^ -5 ≤ |x| < 10 ^ 16`, always with a
fraction, and else with an exponent that has its sign. -/
def scientificText (s : Scientific) : List Char :=
  let ds := digits s.digits
  let last : Int := ds.length
  let point : Int := last + s.exponent
  if point ≤ -5 ∨ 16 < point then
    let power := point - 1
    let fraction := match ds.tail with
      | [] => []
      | rest => '.' :: rest
    ds.take 1 ++ fraction ++ 'e' :: (if power < 0 then '-' else '+') :: digits power.natAbs
  else if point ≤ 0 then
    '0' :: '.' :: (List.replicate (-point).toNat '0' ++ ds)
  else if last ≤ point then
    ds ++ List.replicate (point - last).toNat '0' ++ ['.', '0']
  else
    ds.take point.toNat ++ '.' :: ds.drop point.toNat

/-- The text of a double: its sign and the shortest decimal that reads back. -/
def doubleText (x : Binary64) : List Char :=
  let text :=
    if x.magnitude.significand = 0 then ['0', '.', '0']
    else scientificText x.magnitude.shortest
  if x.negative then '-' :: text else text

def Number.text : Number → List Char
  | .integer i => if i < 0 then '-' :: digits i.natAbs else digits i.natAbs
  | .double x => doubleText x

/-- The character of a digit to the base sixteen. -/
def hexChar (d : Nat) : Char :=
  if d < 10 then Char.ofNat (48 + d) else Char.ofNat (87 + d)

/-- One character of a string. Quotes, backslashes and control characters are escaped. -/
def escapeBefore (c : Char) (tail : List Char) : List Char :=
  if c = '"' then '\\' :: '"' :: tail
  else if c = '\\' then '\\' :: '\\' :: tail
  else if c = '\x08' then '\\' :: 'b' :: tail
  else if c = '\t' then '\\' :: 't' :: tail
  else if c = '\n' then '\\' :: 'n' :: tail
  else if c = '\x0c' then '\\' :: 'f' :: tail
  else if c = '\r' then '\\' :: 'r' :: tail
  else if c.toNat < 0x20 then
    '\\' :: 'u' :: '0' :: '0' :: hexChar (c.toNat / 16) :: hexChar (c.toNat % 16) :: tail
  else c :: tail

/-- A string between quotes. -/
def quoteBefore (s : String) (tail : List Char) : List Char :=
  '"' :: s.toList.foldr escapeBefore ('"' :: tail)

mutual

/-- Print a value that stands at a level of nesting. -/
def Value.printBefore (layout : Layout) (depth : Nat) : Value → List Char → List Char
  | .null, tail => 'n' :: 'u' :: 'l' :: 'l' :: tail
  | .bool true, tail => 't' :: 'r' :: 'u' :: 'e' :: tail
  | .bool false, tail => 'f' :: 'a' :: 'l' :: 's' :: 'e' :: tail
  | .number n, tail => n.text ++ tail
  | .string s, tail => quoteBefore s tail
  | .array [], tail => '[' :: ']' :: tail
  | .array (item :: items), tail =>
      '[' :: layout.lineBefore (depth + 1)
        (item.printBefore layout (depth + 1) (Value.itemsBefore layout depth items tail))
  | .object [], tail => '\x7b' :: '\x7d' :: tail
  | .object ((key, value) :: fields), tail =>
      '\x7b' :: layout.lineBefore (depth + 1)
        (quoteBefore key (layout.colonBefore
          (value.printBefore layout (depth + 1) (Value.fieldsBefore layout depth fields tail))))

/-- Print the items after the first one and close the array. -/
def Value.itemsBefore (layout : Layout) (depth : Nat) : List Value → List Char → List Char
  | [], tail => layout.lineBefore depth (']' :: tail)
  | item :: items, tail =>
      ',' :: layout.lineBefore (depth + 1)
        (item.printBefore layout (depth + 1) (Value.itemsBefore layout depth items tail))

/-- Print the fields after the first one and close the object. -/
def Value.fieldsBefore (layout : Layout) (depth : Nat) :
    List (String × Value) → List Char → List Char
  | [], tail => layout.lineBefore depth ('\x7d' :: tail)
  | (key, value) :: fields, tail =>
      ',' :: layout.lineBefore (depth + 1)
        (quoteBefore key (layout.colonBefore
          (value.printBefore layout (depth + 1) (Value.fieldsBefore layout depth fields tail))))

end

def Value.text (layout : Layout) (value : Value) : String :=
  String.ofList (value.printBefore layout 0 [])

end FlexFold.Json
