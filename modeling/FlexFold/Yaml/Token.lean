/-!
Tokens of YAML documents, and the places of a text where they stand.
-/

namespace FlexFold.Yaml

inductive Fault where
  | forbiddenCharacter
  | noTokenStart
  | unexpectedEnd
  | unexpectedIndicator
  | badIndentation
  | badEscape
  | badDirective
  | badAnchor
  | badTag
  | badBlockHeader
  | missingColon
  | missingNode
  | missingSeparator
  | missingDocumentStart
  | unknownAlias
  | severalDocuments
  | wrongType (expected : String)
  | duplicateField (name : String)
deriving DecidableEq, Repr

def Fault.message : Fault → String
  | .forbiddenCharacter => "control characters are not allowed"
  | .noTokenStart => "found character that cannot start any token"
  | .unexpectedEnd => "found unexpected end of stream"
  | .unexpectedIndicator => "found an indicator where it is not allowed"
  | .badIndentation => "found a tab character that violates indentation"
  | .badEscape => "found unknown escape character"
  | .badDirective => "found an invalid directive"
  | .badAnchor => "did not find expected alphabetic or numeric character"
  | .badTag => "found an invalid tag"
  | .badBlockHeader => "did not find expected comment or line break"
  | .missingColon => "could not find expected ':'"
  | .missingNode => "did not find expected node content"
  | .missingSeparator => "did not find expected separator"
  | .missingDocumentStart => "did not find expected document start"
  | .unknownAlias => "unknown anchor"
  | .severalDocuments => "deserializing from YAML containing more than one document"
  | .wrongType expected => "invalid type: expected " ++ expected
  | .duplicateField name => s!"duplicate field `{name}`"

/-- How a scalar is written: with neither quotes nor a block header, or in one of these ways. -/
inductive Style where
  | plain
  | quoted
  | literal
  | folded
deriving DecidableEq, Repr

/-- The text of a tag in bytes, since its escapes need not make up characters. -/
abbrev TagText := List UInt8

namespace TagText

def ofString (text : String) : TagText := text.toUTF8.toList

/-- What stands before the first zero byte, where every tag ends. -/
def cut (text : TagText) : TagText := text.takeWhile (· ≠ 0)

end TagText

inductive Token where
  | version (major minor : Nat)
  /-- A handle of tags, and what it stands for. -/
  | tagHandle (handle : String) (start : TagText)
  | documentStart
  | documentEnd
  | blockSequenceStart
  | blockMappingStart
  | blockEnd
  | flowSequenceStart
  | flowSequenceEnd
  | flowMappingStart
  | flowMappingEnd
  | blockEntry
  | flowEntry
  | key
  | value
  | alias (name : String)
  | anchor (name : String)
  /-- A tag by its handle, which is empty if the tag is written out, and what follows it. -/
  | tag (handle : String) (text : TagText)
  | scalar (text : String) (style : Style)
deriving DecidableEq, Repr

/-! ### Characters -/

/-- A character that ends a line. Other line ends are replaced by line feeds beforehand. -/
def isBreak (c : Char) : Bool := c == '\n' || c == '\u2028' || c == '\u2029'

def isBlank (c : Char) : Bool := c == ' ' || c == '\t'

/-- A blank, a line end or the end of the text. -/
def endsWord (text : List Char) : Bool :=
  match text with
  | [] => true
  | c :: _ => isBlank c || isBreak c

def isNameChar (c : Char) : Bool :=
  ('0' ≤ c && c ≤ '9') || ('A' ≤ c && c ≤ 'Z') || ('a' ≤ c && c ≤ 'z') || c == '_' || c == '-'

/-- Whether a character may occur in a document. -/
def isAllowed (c : Char) : Bool :=
  let n := c.toNat
  n == 0x09 || n == 0x0A || n == 0x0D || (0x20 ≤ n && n ≤ 0x7E) || n == 0x85 ||
    (0xA0 ≤ n && n ≤ 0xD7FF) || (0xE000 ≤ n && n ≤ 0xFFFD) || 0x10000 ≤ n

/-- Replace every line end of one byte or two by a line feed. -/
def unifyBreaks : List Char → List Char
  | '\r' :: '\n' :: text => '\n' :: unifyBreaks text
  | c :: text => (if c = '\r' ∨ c = '\u0085' then '\n' else c) :: unifyBreaks text
  | [] => []

/-! ### Places -/

structure Mark where
  index : Nat := 0
  line : Nat := 0
  column : Nat := 0
deriving DecidableEq, Repr

namespace Mark

def step (mark : Mark) (c : Char) : Mark :=
  if isBreak c then ⟨mark.index + 1, mark.line + 1, 0⟩
  else ⟨mark.index + 1, mark.line, mark.column + 1⟩

def stepAll (mark : Mark) (cs : List Char) : Mark := cs.foldl step mark

end Mark

/-- A place and the text that follows it. -/
structure Cursor where
  mark : Mark
  rest : List Char

namespace Cursor

/-- Go on by a number of characters. -/
def drop (cursor : Cursor) (n : Nat) : Cursor :=
  ⟨cursor.mark.stepAll (cursor.rest.take n), cursor.rest.drop n⟩

def dropWhile (cursor : Cursor) (p : Char → Bool) : Cursor :=
  cursor.drop (cursor.rest.takeWhile p).length

/-- Whether a line begins here with three characters that stand between documents. -/
def isDocumentMark (cursor : Cursor) (c : Char) : Bool :=
  cursor.mark.column == 0 && cursor.rest.take 3 == [c, c, c] && endsWord (cursor.rest.drop 3)

/-- Whether a document begins or ends here. -/
def isBetweenDocuments (cursor : Cursor) : Bool :=
  cursor.isDocumentMark '-' || cursor.isDocumentMark '.'

end Cursor

end FlexFold.Yaml
