import FlexFold.Json.Lexeme

/-!
The texts of JSON documents, described without a reader: how blanks, numbers, strings and values
are spelled, and which value a text spells. The fields of an object are taken as they stand in the
text, in their order and with every repetition.
-/

namespace FlexFold.Json

open Decimal (Magnitude isDigit readOnto)

def IsBlank (w : List Char) : Prop := ∀ c ∈ w, isSpace c

/-! ### Numbers -/

/-- The exponent of a number as it is written. -/
structure Exponent where
  letter : Char
  sign : List Char
  digits : List Char
  letter_mem : letter ∈ ['e', 'E']
  sign_mem : sign ∈ [[], ['+'], ['-']]
  digits_ne_nil : digits ≠ []
  isDigit_digits : ∀ d ∈ digits, isDigit d

namespace Exponent

def text (x : Exponent) : List Char := x.letter :: (x.sign ++ x.digits)

def isNegative (x : Exponent) : Bool := x.sign == ['-']

def magnitude (x : Exponent) : Nat := readOnto 0 x.digits

end Exponent

/-- The text of an exponent that may be missing. -/
def exponentText (x : Option Exponent) : List Char := (x.map Exponent.text).getD []

/-- The point and the digits after it. Without digits there is no point. -/
def fractionText (ds : List Char) : List Char := if ds = [] then [] else '.' :: ds

/-- A number as it is written. -/
structure Numeral where
  negative : Bool
  whole : List Char
  fraction : List Char
  exponent : Option Exponent
  whole_ne_nil : whole ≠ []
  isDigit_whole : ∀ d ∈ whole, isDigit d
  /-- A zero leads only if it stands alone. -/
  whole_eq_zero : whole.head? = some '0' → whole = ['0']
  isDigit_fraction : ∀ d ∈ fraction, isDigit d

/-- The double with some digits and an exponent, unless it is too great. -/
def double? (negative : Bool) (n : Nat) (exponent : Int) : Option Number :=
  (Magnitude.ofDecimal n exponent).map fun f => .double ⟨negative, f⟩

/-- An integer, or a double if no machine word holds the integer. Zero loses no sign. -/
def whole? (negative : Bool) (n : Nat) : Option Number :=
  if negative then
    if 0 < n ∧ n ≤ Nat.pow 2 63 then some (.integer (-(n : Int))) else double? true n 0
  else some (.integer n)

/-- What an exponent makes of digits that stand at the exponent `shift`. An exponent that no reader
holds leads out of range, unless it is negative or the digits are zero. -/
def scaled? (negative : Bool) (n : Nat) (shift : Int) : Option Exponent → Option Number
  | none => double? negative n shift
  | some x =>
      if x.magnitude ≤ maxExponent then
        double? negative n (if x.isNegative then shift - x.magnitude else shift + x.magnitude)
      else if n ≠ 0 ∧ x.isNegative = false then none
      else some (.double ⟨negative, .zero⟩)

namespace Numeral

def text (x : Numeral) : List Char :=
  (if x.negative then ['-'] else []) ++
    (x.whole ++ (fractionText x.fraction ++ exponentText x.exponent))

/-- The number that is written, unless it is out of range. Digits beyond 64 bits are dropped. -/
def value? (x : Numeral) : Option Number :=
  match significand 0 0 x.whole with
  | (n, _, dropped) =>
      if dropped = [] ∧ x.fraction = [] ∧ x.exponent.isNone then whole? x.negative n
      else
        match significand n 0 x.fraction with
        | (m, count, _) => scaled? x.negative m (dropped.length - count) x.exponent

end Numeral

/-! ### Strings -/

/-- The letters of escapes and the characters that they stand for. -/
def escapeLetters : List (Char × Char) :=
  [('"', '"'), ('\\', '\\'), ('/', '/'), ('b', '\x08'), ('f', '\x0c'), ('n', '\n'), ('r', '\r'),
    ('t', '\t')]

/-- Four hexadecimal digits. -/
inductive SpellsQuad : Nat → List Char → Prop where
  | mk {a b c d : Char} {i j k l : Nat} (ha : hexValue? a = some i) (hb : hexValue? b = some j)
      (hc : hexValue? c = some k) (hd : hexValue? d = some l) :
      SpellsQuad (((i * 16 + j) * 16 + k) * 16 + l) [a, b, c, d]

/-- The escapes of a character, without the backslash. -/
inductive Escapes : Char → List Char → Prop where
  | letter {c d : Char} (h : (d, c) ∈ escapeLetters) : Escapes c [d]
  | unit {n : Nat} {quad : List Char} (h : SpellsQuad n quad) (hleading : isLeading n = false)
      (htrailing : isTrailing n = false) : Escapes (Char.ofNat n) ('u' :: quad)
  | pair {n m : Nat} {quad quad' : List Char} (h : SpellsQuad n quad) (h' : SpellsQuad m quad')
      (hleading : isLeading n) (htrailing : isTrailing m) :
      Escapes (Char.ofNat ((n - 0xD800) * 0x400 + (m - 0xDC00) + 0x10000))
        ('u' :: (quad ++ '\\' :: 'u' :: quad'))

/-- The characters of a string between its quotes. -/
inductive SpellsChars : List Char → List Char → Prop where
  | nil : SpellsChars [] []
  | plain {c : Char} {chars u : List Char} (hquote : c ≠ '"') (hbackslash : c ≠ '\\')
      (hcontrol : isControl c = false) (h : SpellsChars chars u) :
      SpellsChars (c :: chars) (c :: u)
  | escaped {c : Char} {chars e u : List Char} (hc : Escapes c e) (h : SpellsChars chars u) :
      SpellsChars (c :: chars) ('\\' :: (e ++ u))

/-! ### Values -/

/-- What stands before a part of a container: blanks, and a comma unless the part comes first. -/
inductive Separator : Bool → List Char → Prop where
  | first {w : List Char} (h : IsBlank w) : Separator true w
  | comma {w w' : List Char} (h : IsBlank w) (h' : IsBlank w') : Separator false (w ++ ',' :: w')

/-- The parts of a container up to its closing bracket. -/
inductive Parts {γ : Type} (part : γ → List Char → Prop) : Bool → List γ → List Char → Prop where
  | close {first : Bool} {w : List Char} (h : IsBlank w) : Parts part first [] w
  | cons {first : Bool} {a : γ} {as : List γ} {sep u rest : List Char}
      (hsep : Separator first sep) (ha : part a u) (has : Parts part false as rest) :
      Parts part first (a :: as) (sep ++ (u ++ rest))

/-- A field of an object, given how its value is spelled. -/
inductive SpellsField (spells : Value → List Char → Prop) :
    String × Value → List Char → Prop where
  | mk {chars key w w' u : List Char} {value : Value} (hkey : SpellsChars chars key)
      (hw : IsBlank w) (hw' : IsBlank w') (hvalue : spells value u) :
      SpellsField spells (String.ofList chars, value)
        ('"' :: (key ++ '"' :: (w ++ ':' :: (w' ++ u))))

/-- The texts of a value. -/
inductive Spells : Value → List Char → Prop where
  | null : Spells .null ['n', 'u', 'l', 'l']
  | true : Spells (.bool true) ['t', 'r', 'u', 'e']
  | false : Spells (.bool false) ['f', 'a', 'l', 's', 'e']
  | number {x : Numeral} {n : Number} (h : x.value? = some n) : Spells (.number n) x.text
  | string {chars u : List Char} (h : SpellsChars chars u) :
      Spells (.string (String.ofList chars)) ('"' :: (u ++ ['"']))
  | array {items : List Value} {u : List Char} (h : Parts Spells true items u) :
      Spells (.array items) ('[' :: (u ++ [']']))
  | object {fields : Fields} {u : List Char} (h : Parts (SpellsField Spells) true fields u) :
      Spells (.object fields) ('\x7b' :: (u ++ ['\x7d']))

/-- A document: one value with nothing but blanks around it. -/
def IsDocument (value : Value) (s : List Char) : Prop :=
  ∃ w u w', IsBlank w ∧ Spells value u ∧ IsBlank w' ∧ s = w ++ (u ++ w')

end FlexFold.Json
