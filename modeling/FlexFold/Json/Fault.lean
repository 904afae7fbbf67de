import FlexFold.Decimal.Digits
import FlexFold.Json.Printer
import FlexFold.Text.Utf8

/-!
What can be wrong with a JSON text, and where. A fault is found while the text is read and only
knows how much of the text is left; its line and column follow from the whole text.
-/

namespace FlexFold.Json

open Decimal (Binary64 natText intText)

/-- What stands in the place of something else. -/
inductive Found where
  | null
  | bool (value : Bool)
  | integer (value : Int)
  | double (value : Binary64)
  | string (value : String)
  | sequence
  | map
deriving DecidableEq, Repr

inductive Cause where
  | endOfValue
  | endOfList
  | endOfObject
  | endOfString
  | expectedColon
  | expectedListCommaOrEnd
  | expectedObjectCommaOrEnd
  | expectedIdent
  | expectedValue
  | keyMustBeString
  | trailingComma
  | trailingCharacters
  | invalidNumber
  | numberOutOfRange
  | invalidEscape
  | controlCharacter
  | loneSurrogate
  | endOfHexEscape
  | nestingLimit
  | invalidType (found : Found) (expected : String)
  | invalidValue (found : Found) (expected : String)
  | invalidLength (length : Nat) (expected : String)
  | missingField (name : String)
  | duplicateField (name : String)
  | invalidTime (message : String)
deriving DecidableEq, Repr

/-- A cause and the number of bytes of the text that follow the place where it was found. -/
structure Fault where
  cause : Cause
  left : Nat
deriving DecidableEq, Repr

namespace Fault

/-- Found with `rest` left to read. -/
def here (cause : Cause) (rest : List Char) : Fault := ⟨cause, Text.byteLength rest⟩

/-- Found in the next byte of `rest`, if there is one. -/
def next (cause : Cause) (rest : List Char) : Fault := ⟨cause, Text.byteLength rest - 1⟩

end Fault

/-- A place in a text. Lines are counted from one; the column counts the bytes of the line up to
the place. -/
structure Position where
  line : Nat
  column : Nat
deriving DecidableEq, Repr

namespace Position

/-- Go on by a number of bytes. -/
def advance : Nat → Position → List Char → Position
  | _, p, [] => p
  | offset, p, c :: text =>
      if offset = 0 then p
      else if c = '\n' then advance (offset - 1) ⟨p.line + 1, 0⟩ text
      else if offset ≤ c.utf8Size then ⟨p.line, p.column + offset⟩
      else advance (offset - c.utf8Size) ⟨p.line, p.column + c.utf8Size⟩ text

/-- The place that a number of bytes of the text precedes. -/
def ofOffset (text : List Char) (offset : Nat) : Position := advance offset ⟨1, 0⟩ text

end Position

/-- Why a text could not be read. -/
structure Error where
  cause : Cause
  position : Position
deriving DecidableEq, Repr

def Error.ofFault (text : List Char) (fault : Fault) : Error :=
  ⟨fault.cause, .ofOffset text (Text.byteLength text - fault.left)⟩

end FlexFold.Json
