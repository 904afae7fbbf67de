/-!
The UTF-8 encoding: how many bytes a text takes, and where a sequence of bytes stops being a
text. A fault names the first byte that belongs to no character and how long the broken sequence
is, unless the bytes end within a character.
-/

namespace FlexFold.Text

/-- The number of bytes of some characters. -/
def byteLength (text : List Char) : Nat := text.foldl (fun n c => n + c.utf8Size) 0

/-- Why some bytes are no text. -/
structure Utf8Fault where
  /-- The number of bytes before the fault, which are a text. -/
  validUpTo : Nat
  /-- The length of the broken sequence, or `none` if the bytes end within it. -/
  errorLength : Option Nat
deriving DecidableEq, Repr

def Utf8Fault.message (fault : Utf8Fault) : String :=
  match fault.errorLength with
  | some n => s!"invalid utf-8 sequence of {n} bytes from index {fault.validUpTo}"
  | none => s!"incomplete utf-8 byte sequence from index {fault.validUpTo}"

/-- Whether a byte continues a character. -/
def isContinuation (b : UInt8) : Bool := 0x80 ≤ b && b ≤ 0xBF

/-- The bytes that may stand second in a character of three bytes. -/
def isSecondOfThree (first second : UInt8) : Bool :=
  if first == 0xE0 then 0xA0 ≤ second && second ≤ 0xBF
  else if first == 0xED then 0x80 ≤ second && second ≤ 0x9F
  else isContinuation second

/-- The bytes that may stand second in a character of four bytes. -/
def isSecondOfFour (first second : UInt8) : Bool :=
  if first == 0xF0 then 0x90 ≤ second && second ≤ 0xBF
  else if first == 0xF4 then 0x80 ≤ second && second ≤ 0x8F
  else isContinuation second

/-- The first fault in bytes that follow `index` valid ones. -/
def findFault (index : Nat) : List UInt8 → Option Utf8Fault
  | [] => none
  | a :: rest =>
      if a < 0x80 then findFault (index + 1) rest
      else if 0xC2 ≤ a && a ≤ 0xDF then
        match rest with
        | [] => some ⟨index, none⟩
        | b :: rest =>
            if isContinuation b then findFault (index + 2) rest else some ⟨index, some 1⟩
      else if 0xE0 ≤ a && a ≤ 0xEF then
        match rest with
        | [] => some ⟨index, none⟩
        | b :: rest =>
            if isSecondOfThree a b then
              match rest with
              | [] => some ⟨index, none⟩
              | c :: rest =>
                  if isContinuation c then findFault (index + 3) rest else some ⟨index, some 2⟩
            else some ⟨index, some 1⟩
      else if 0xF0 ≤ a && a ≤ 0xF4 then
        match rest with
        | [] => some ⟨index, none⟩
        | b :: rest =>
            if isSecondOfFour a b then
              match rest with
              | [] => some ⟨index, none⟩
              | c :: rest =>
                  if isContinuation c then
                    match rest with
                    | [] => some ⟨index, none⟩
                    | d :: rest =>
                        if isContinuation d then findFault (index + 4) rest
                        else some ⟨index, some 3⟩
                  else some ⟨index, some 2⟩
            else some ⟨index, some 1⟩
      else some ⟨index, some 1⟩

/-- The first fault of a sequence of bytes that is no text. -/
def utf8Fault (bytes : ByteArray) : Utf8Fault :=
  (findFault 0 bytes.toList).getD ⟨bytes.size, none⟩

def decode (bytes : ByteArray) : Except Utf8Fault String :=
  match String.fromUTF8? bytes with
  | some text => .ok text
  | none => .error (utf8Fault bytes)

end FlexFold.Text
