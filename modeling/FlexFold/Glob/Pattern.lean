import FlexFold.Decimal.Digits

/-!
Patterns for paths. `?` stands for a character, `*` for any number of them, `**` as a whole
component for any number of components, and `[…]` for one character of a class or, after `!`, for
one outside it. Everything else stands for itself.
-/

namespace FlexFold.Glob

inductive ClassPart where
  | single (c : Char)
  | range (low high : Char)
deriving DecidableEq, Repr

namespace ClassPart

/-- Whether a character belongs to a part. -/
def contains (c : Char) : ClassPart → Bool
  | .single d => c == d
  | .range low high => low ≤ c && c ≤ high

/-- The parts of a class. A hyphen between two characters makes a range. -/
def ofChars : List Char → List ClassPart
  | low :: '-' :: high :: rest => .range low high :: ofChars rest
  | c :: rest => .single c :: ofChars rest
  | [] => []

end ClassPart

inductive Token where
  | char (c : Char)
  | anyChar
  | anySequence
  /-- Any number of components. -/
  | anyComponents
  | within (parts : List ClassPart)
  | except (parts : List ClassPart)
deriving DecidableEq, Repr

inductive PatternCause where
  | invalidRange
  | tooManyStars
  | noSingleComponent
deriving DecidableEq, Repr

/-- What is wrong with a pattern, and how many characters stand before the place. -/
structure PatternFault where
  position : Nat
  cause : PatternCause
deriving DecidableEq, Repr

def PatternCause.message : PatternCause → String
  | .invalidRange => "invalid range pattern"
  | .tooManyStars => "wildcards are either regular `*` or recursive `**`"
  | .noSingleComponent => "recursive wildcards must form a single path component"

def PatternFault.message (fault : PatternFault) : String :=
  s!"Pattern syntax error near position {Decimal.natText fault.position}: {fault.cause.message}"

structure Pattern where
  tokens : List Token
deriving DecidableEq, Repr

/-! ### Reading patterns -/

/-- The characters of a class and what follows its closing bracket. A bracket that comes first
belongs to the class. -/
def classBody : List Char → Option (List Char × List Char)
  | [] => none
  | c :: text =>
      match text.dropWhile (· ≠ ']') with
      | _ :: rest => some (c :: text.takeWhile (· ≠ ']'), rest)
      | [] => none

theorem length_classBody {text body rest : List Char} (h : classBody text = some (body, rest)) :
    rest.length < text.length := by
  unfold classBody at h
  split at h
  · simp at h
  · next c text =>
      have hs := (text.dropWhile_sublist (· ≠ ']')).length_le
      split at h
      · next d rest' hd =>
          simp only [Option.some.injEq, Prod.mk.injEq] at h
          rw [hd, List.length_cons] at hs
          rw [← h.2, List.length_cons]
          omega
      · simp at h

/-- The tokens of the characters that follow `index` others, the last of which is `before`. -/
def tokensFrom (index : Nat) (before : Option Char) (text : List Char) :
    Except PatternFault (List Token) :=
  match text with
  | [] => .ok []
  | '?' :: rest => (tokensFrom (index + 1) (some '?') rest).map (.anyChar :: ·)
  | '*' :: '*' :: '*' :: _ => .error ⟨index + 2, .tooManyStars⟩
  | '*' :: '*' :: rest =>
      if before = none ∨ before = some '/' then
        match rest with
        | [] => .ok [.anyComponents]
        | '/' :: rest => (tokensFrom (index + 3) (some '/') rest).map (.anyComponents :: ·)
        | _ => .error ⟨index + 2, .noSingleComponent⟩
      else .error ⟨index - 1, .noSingleComponent⟩
  | '*' :: rest => (tokensFrom (index + 1) (some '*') rest).map (.anySequence :: ·)
  | '[' :: '!' :: rest =>
      match _h : classBody rest with
      | some (body, rest) =>
          (tokensFrom (index + body.length + 3) (some ']') rest).map
            (.except (ClassPart.ofChars body) :: ·)
      | none => .error ⟨index, .invalidRange⟩
  | '[' :: rest =>
      match _h : classBody rest with
      | some (body, rest) =>
          (tokensFrom (index + body.length + 2) (some ']') rest).map
            (.within (ClassPart.ofChars body) :: ·)
      | none => .error ⟨index, .invalidRange⟩
  | c :: rest => (tokensFrom (index + 1) (some c) rest).map (.char c :: ·)
termination_by text.length
decreasing_by
  all_goals simp only [List.length_cons]
  all_goals first
    | omega
    | (have hb := length_classBody _h; omega)

def Pattern.parse (text : String) : Except PatternFault Pattern :=
  (tokensFrom 0 none text.toList).map Pattern.mk

/-! ### Matching -/

/-- Whether a token that stands for one character stands for `c`. -/
def Token.accepts (c : Char) : Token → Bool
  | .char d => c == d
  | .anyChar => true
  | .within parts => parts.any (ClassPart.contains c)
  | .except parts => !parts.any (ClassPart.contains c)
  | .anySequence | .anyComponents => false

/-- The character that a token stands for, if it stands for itself. -/
def Token.char? : Token → Option Char
  | .char c => some c
  | _ => none

/-- Every end of a text, from the whole text to nothing. -/
def suffixes : List Char → List (List Char)
  | [] => [[]]
  | c :: text => (c :: text) :: suffixes text

/-- The ends of a text that follow a slash, and the empty one. -/
def suffixesAfterSlash : List Char → List (List Char)
  | [] => [[]]
  | c :: text => if c = '/' then text :: suffixesAfterSlash text else suffixesAfterSlash text

/-- Whether tokens match a whole text. A slash is a character like any other, but `**` only ends
after one. -/
def matchTokens : List Token → List Char → Bool
  | [], text => text.isEmpty
  | .anySequence :: tokens, text => (suffixes text).any (matchTokens tokens)
  | .anyComponents :: tokens, text =>
      matchTokens tokens text || (suffixesAfterSlash text).any (matchTokens tokens)
  | _ :: _, [] => false
  | token :: tokens, c :: text => token.accepts c && matchTokens tokens text

namespace Pattern

def matchesText (p : Pattern) (text : String) : Bool := matchTokens p.tokens text.toList

def isRecursive (p : Pattern) : Bool := p.tokens.contains .anyComponents

/-- The text that a pattern without wildcards and classes stands for. -/
def literal? (p : Pattern) : Option String :=
  (p.tokens.mapM Token.char?).map String.ofList

end Pattern

end FlexFold.Glob
