import FlexFold.Yaml.Scalar

/-!
The tokens of a document. Blocks are opened and closed by indentation. A scalar or a flow
collection turns out to be a key only when its colon is met; until then its place in the list of
tokens is remembered.
-/

namespace FlexFold.Yaml

/-- A place where a key may have begun. -/
structure PossibleKey where
  /-- The number of tokens before it. -/
  position : Nat
  mark : Mark
  /-- Whether nothing but a key can stand there. -/
  isRequired : Bool

/-- What is known after some of the tokens. -/
structure Lexing where
  cursor : Cursor
  /-- The tokens, back to front. -/
  tokens : List Token := []
  /-- The indentation of the open blocks, the innermost one first. -/
  indents : List Nat := []
  /-- The possible key outside flow collections. -/
  outerKey : Option PossibleKey := none
  /-- The possible keys of the open flow collections, the innermost one first. -/
  flowKeys : List (Option PossibleKey) := []
  /-- Whether a key may begin here. -/
  keyAllowed : Bool := true

namespace Lexing

def inFlow (lexing : Lexing) : Bool := !lexing.flowKeys.isEmpty

def push (lexing : Lexing) (token : Token) : Lexing :=
  { lexing with tokens := token :: lexing.tokens }

/-- Add a token after the first `position` ones. -/
def insert (lexing : Lexing) (position : Nat) (token : Token) : Lexing :=
  let after := lexing.tokens.length - position
  { lexing with tokens := lexing.tokens.take after ++ token :: lexing.tokens.drop after }

def pushDrop (lexing : Lexing) (token : Token) (length : Nat) : Lexing :=
  { lexing.push token with cursor := lexing.cursor.drop length }

/-! ### Blanks and comments -/

/-- Skip blanks, comments and line ends. Outside flow collections, a tab is no blank where a key
may begin. -/
def skipFrom (inFlow keyAllowed inComment : Bool) (mark : Mark) :
    List Char → Bool × Cursor
  | [] => (keyAllowed, ⟨mark, []⟩)
  | c :: rest =>
      if isBreak c then skipFrom inFlow (keyAllowed || !inFlow) false (mark.step c) rest
      else if inComment || c == ' ' || (c == '\t' && (inFlow || !keyAllowed)) || c == '#' ||
          (c == '\ufeff' && mark.index == 0) then
        skipFrom inFlow keyAllowed (inComment || c == '#') (mark.step c) rest
      else (keyAllowed, ⟨mark, c :: rest⟩)

def skip (lexing : Lexing) : Lexing :=
  let (keyAllowed, cursor) :=
    skipFrom lexing.inFlow lexing.keyAllowed false lexing.cursor.mark lexing.cursor.rest
  { lexing with keyAllowed, cursor }

/-! ### Possible keys -/

/-- The greatest length of a key. -/
def keyLimit : Nat := 1024

/-- Forget a possible key that is too far away. -/
def dropStale (mark : Mark) (key : Option PossibleKey) : Except Fault (Option PossibleKey) :=
  match key with
  | none => .ok none
  | some key =>
      if key.mark.line < mark.line ∨ key.mark.index + keyLimit < mark.index then
        if key.isRequired then .error .missingColon else .ok none
      else .ok (some key)

/-- Forget all possible keys that are too far away. -/
def dropStaleKeys (lexing : Lexing) : Except Fault Lexing := do
  let outerKey ← dropStale lexing.cursor.mark lexing.outerKey
  let flowKeys ← lexing.flowKeys.mapM (dropStale lexing.cursor.mark)
  .ok { lexing with outerKey, flowKeys }

/-- The possible key of the innermost collection. -/
def topKey (lexing : Lexing) : Option PossibleKey :=
  match lexing.flowKeys with
  | key :: _ => key
  | [] => lexing.outerKey

/-- Replace the possible key of the innermost collection. -/
def setTopKey (lexing : Lexing) (key : Option PossibleKey) : Lexing :=
  match lexing.flowKeys with
  | _ :: keys => { lexing with flowKeys := key :: keys }
  | [] => { lexing with outerKey := key }

/-- Give up the possible key of the innermost collection. -/
def removeKey (lexing : Lexing) : Except Fault Lexing :=
  match lexing.topKey with
  | some key => if key.isRequired then .error .missingColon else .ok (lexing.setTopKey none)
  | none => .ok lexing

/-- Remember that a key may begin here. -/
def saveKey (lexing : Lexing) : Except Fault Lexing :=
  if lexing.keyAllowed then do
    let lexing ← lexing.removeKey
    let mark := lexing.cursor.mark
    .ok (lexing.setTopKey (some {
      position := lexing.tokens.length
      mark
      isRequired := !lexing.inFlow && lexing.indents.head? == some mark.column }))
  else .ok lexing

/-! ### Indentation -/

/-- Open a block if the column is deeper than the open ones. -/
def openBlock (lexing : Lexing) (column position : Nat) (token : Token) : Lexing :=
  if lexing.inFlow then lexing
  else if lexing.indents.head?.all fun indent => indent < column then
    { lexing.insert position token with indents := column :: lexing.indents }
  else lexing

/-- Close the blocks that are deeper than the column. -/
def closeBlocks (column : Option Nat) : List Nat → List Token → List Nat × List Token
  | [], tokens => ([], tokens)
  | indent :: indents, tokens =>
      if column.all fun n => n < indent then closeBlocks column indents (.blockEnd :: tokens)
      else (indent :: indents, tokens)

/-- Close the blocks that are deeper than the column, or all of them. -/
def unroll (lexing : Lexing) (column : Option Nat) : Lexing :=
  if lexing.inFlow then lexing
  else
    let (indents, tokens) := closeBlocks column lexing.indents lexing.tokens
    { lexing with indents, tokens }

/-! ### Tokens -/

/-- The beginning or the end of a document. -/
def betweenDocuments (lexing : Lexing) (token : Token) : Except Fault Lexing := do
  let lexing ← (lexing.unroll none).removeKey
  .ok { lexing.pushDrop token 3 with keyAllowed := false }

/-- The opening bracket of a flow collection. -/
def flowStart (lexing : Lexing) (token : Token) : Except Fault Lexing := do
  let lexing ← lexing.saveKey
  .ok { lexing.pushDrop token 1 with flowKeys := none :: lexing.flowKeys, keyAllowed := true }

/-- The closing bracket of a flow collection. -/
def flowEnd (lexing : Lexing) (token : Token) : Except Fault Lexing := do
  let lexing ← lexing.removeKey
  .ok { lexing.pushDrop token 1 with flowKeys := lexing.flowKeys.tail, keyAllowed := false }

def flowEntry (lexing : Lexing) : Except Fault Lexing := do
  let lexing ← lexing.removeKey
  .ok { lexing.pushDrop .flowEntry 1 with keyAllowed := true }

def blockEntry (lexing : Lexing) : Except Fault Lexing := do
  if !lexing.inFlow && !lexing.keyAllowed then .error .unexpectedIndicator
  let lexing :=
    lexing.openBlock lexing.cursor.mark.column lexing.tokens.length .blockSequenceStart
  let lexing ← lexing.removeKey
  .ok { lexing.pushDrop .blockEntry 1 with keyAllowed := true }

def explicitKey (lexing : Lexing) : Except Fault Lexing := do
  if !lexing.inFlow && !lexing.keyAllowed then .error .unexpectedIndicator
  let lexing :=
    lexing.openBlock lexing.cursor.mark.column lexing.tokens.length .blockMappingStart
  let lexing ← lexing.removeKey
  .ok { lexing.pushDrop .key 1 with keyAllowed := !lexing.inFlow }

def value (lexing : Lexing) : Except Fault Lexing :=
  match lexing.topKey with
  | some key =>
      let lexing := (lexing.setTopKey none).insert key.position .key
      let lexing := lexing.openBlock key.mark.column key.position .blockMappingStart
      .ok { lexing.pushDrop .value 1 with keyAllowed := false }
  | none =>
      if !lexing.inFlow && !lexing.keyAllowed then .error .unexpectedIndicator
      else
        let lexing :=
          lexing.openBlock lexing.cursor.mark.column lexing.tokens.length .blockMappingStart
        .ok { lexing.pushDrop .value 1 with keyAllowed := !lexing.inFlow }

/-- The name of an anchor or an alias. -/
def anchor (lexing : Lexing) (token : String → Token) : Except Fault Lexing := do
  let lexing ← lexing.saveKey
  let cursor := lexing.cursor.drop 1
  let name := cursor.rest.takeWhile isNameChar
  let after := cursor.drop name.length
  let isEnded := endsWord after.rest || after.rest.head?.any fun c => "?:,]\x7d%@`".contains c
  if name = [] ∨ !isEnded then .error .badAnchor
  else
    .ok { lexing.push (token (String.ofList name)) with cursor := after, keyAllowed := false }

/-! ### Tags and directives -/

/-- A character of a tag. Brackets and commas only occur in tags that are written out. -/
def isTagChar (isVerbatim : Bool) (c : Char) : Bool :=
  isNameChar c || ";/?:@&=+$.!~*'()".contains c || (isVerbatim && ",[]".contains c)

/-- The text of a tag after some of its bytes, back to front. Escaped bytes have to begin like
characters; `missing` of them are still to come for the last one. -/
def tagText (isVerbatim : Bool) (missing : Nat) (before : TagText) (mark : Mark) :
    List Char → Scanned TagText
  | '%' :: a :: b :: rest =>
      match hexDigit? a, hexDigit? b with
      | some high, some low =>
          let octet := high * 16 + low
          let goOn (missing : Nat) : Scanned TagText :=
            tagText isVerbatim missing (octet.toUInt8 :: before)
              (((mark.step '%').step a).step b) rest
          if missing = 0 then
            if octet < 0x80 then goOn 0
            else if 0xC0 ≤ octet ∧ octet < 0xE0 then goOn 1
            else if 0xE0 ≤ octet ∧ octet < 0xF0 then goOn 2
            else if 0xF0 ≤ octet ∧ octet < 0xF8 then goOn 3
            else .error .badTag
          else if 0x80 ≤ octet ∧ octet < 0xC0 then goOn (missing - 1)
          else .error .badTag
      | _, _ => .error .badTag
  | c :: rest =>
      if missing ≠ 0 ∨ c = '%' then .error .badTag
      else if isTagChar isVerbatim c then
        tagText isVerbatim 0 (c.toUInt8 :: before) (mark.step c) rest
      else .ok (before.reverse, ⟨mark, c :: rest⟩)
  | [] => if missing = 0 then .ok (before.reverse, ⟨mark, []⟩) else .error .badTag

/-- The handle of a tag: an exclamation mark, or a name between two of them. What else begins
like a handle is the beginning of the text of a tag with the handle `!`. -/
def tagHandle (cursor : Cursor) : String × Cursor :=
  let after := cursor.drop 1
  let name := after.rest.takeWhile isNameChar
  let after := after.drop name.length
  if after.rest.head? = some '!' then
    (String.ofList ('!' :: name ++ ['!']), after.drop 1)
  else (String.ofList ('!' :: name), after)

/-- A tag: its handle and what follows it. A lone exclamation mark is a tag that is written
out. -/
def scanTag (cursor : Cursor) : Scanned (String × TagText) :=
  match cursor.rest with
  | _ :: '<' :: _ =>
      let inner := cursor.drop 2
      match tagText true 0 [] inner.mark inner.rest with
      | .error e => .error e
      | .ok (text, after) =>
          if text = [] ∨ after.rest.head? ≠ some '>' then .error .badTag
          else .ok (("", text.cut), after.drop 1)
  | _ =>
      let (handle, after) := tagHandle cursor
      let isNamed := 1 < handle.length && handle.endsWith "!"
      let before := if isNamed then [] else (handle.toList.drop 1).reverse.map Char.toUInt8
      match tagText false 0 before after.mark after.rest with
      | .error e => .error e
      | .ok (text, after) =>
          if isNamed then
            if text = [] then .error .badTag else .ok ((handle, text.cut), after)
          else if text.cut = [] then .ok (("", .ofString "!"), after)
          else .ok (("!", text.cut), after)

def tag (lexing : Lexing) : Except Fault Lexing := do
  let lexing ← lexing.saveKey
  let ((handle, text), after) ← scanTag lexing.cursor
  if endsWord after.rest || (lexing.inFlow && after.rest.head? == some ',') then
    .ok { lexing.push (.tag handle text) with cursor := after, keyAllowed := false }
  else .error .badTag

def versionNumber (cursor : Cursor) : Scanned Nat :=
  let digits := cursor.rest.takeWhile Char.isDigit
  if digits = [] ∨ 9 < digits.length then .error .badDirective
  else .ok (digits.foldl (fun n c => n * 10 + (c.toNat - 48)) 0, cursor.drop digits.length)

/-- What follows the name of a directive. -/
def directiveValue (name : List Char) (cursor : Cursor) : Except Fault (Token × Cursor) := do
  let cursor := cursor.dropWhile isBlank
  if name = "YAML".toList then
    let (major, cursor) ← versionNumber cursor
    if cursor.rest.head? ≠ some '.' then .error .badDirective
    let (minor, cursor) ← versionNumber (cursor.drop 1)
    .ok (.version major minor, cursor)
  else if name = "TAG".toList then
    if cursor.rest.head? ≠ some '!' then .error .badDirective
    let (handle, after) := tagHandle cursor
    if handle ≠ "!" ∧ !handle.endsWith "!" then .error .badDirective
    if !after.rest.head?.any isBlank then .error .badDirective
    let after := after.dropWhile isBlank
    let (start, after) ← tagText true 0 [] after.mark after.rest
    if start = [] ∨ !endsWord after.rest then .error .badDirective
    .ok (.tagHandle handle start.cut, after)
  else .error .badDirective

/-- A directive with the rest of its line. -/
def directive (lexing : Lexing) : Except Fault Lexing := do
  let lexing ← (lexing.unroll none).removeKey
  let cursor := lexing.cursor.drop 1
  let name := cursor.rest.takeWhile isNameChar
  let cursor := cursor.drop name.length
  if !endsWord cursor.rest then .error .badDirective
  let (token, cursor) ← directiveValue name cursor
  match blockHeaderEnd cursor with
  | .error _ => .error .badDirective
  | .ok cursor => .ok { lexing.push token with cursor, keyAllowed := false }

/-! ### Scalars -/

def block (lexing : Lexing) (isLiteral : Bool) : Except Fault Lexing := do
  let lexing ← lexing.removeKey
  let (text, cursor) ← blockScalar lexing.indents.head? isLiteral lexing.cursor
  let style := if isLiteral then .literal else .folded
  .ok { lexing.push (.scalar text style) with cursor, keyAllowed := true }

def quoted (lexing : Lexing) (isSingle : Bool) : Except Fault Lexing := do
  let lexing ← lexing.saveKey
  let inner := lexing.cursor.drop 1
  let (text, cursor) ← quotedFrom isSingle [] .text inner.mark inner.rest
  .ok { lexing.push (.scalar text .quoted) with cursor, keyAllowed := false }

/-- A plain scalar. A key may begin after it if it ends with its line. -/
def plain (lexing : Lexing) : Except Fault Lexing := do
  let lexing ← lexing.saveKey
  let least := lexing.indents.head?.elim 0 fun n => n + 1
  let ((text, isFolded), cursor) ←
    plainFrom lexing.inFlow least [] none lexing.cursor.mark lexing.cursor.rest
  .ok { lexing.push (.scalar text .plain) with cursor, keyAllowed := isFolded }

/-- Whether a plain scalar may begin with some text. -/
def beginsPlain (inFlow : Bool) (c : Char) (rest : List Char) : Bool :=
  !(isBlank c || isBreak c || "-?:,[]\x7b\x7d#&*!|>'\"%@`".contains c) ||
    (c == '-' && !rest.head?.any isBlank) ||
    (!inFlow && (c == '?' || c == ':') && !endsWord rest)

/-- Add the next token, or nothing at the end of the text. -/
def step (lexing : Lexing) : Except Fault (Option Lexing) := do
  let lexing ← lexing.skip.dropStaleKeys
  let lexing := lexing.unroll (some lexing.cursor.mark.column)
  match lexing.cursor.rest with
  | [] => .ok none
  | c :: rest =>
      let inFlow := lexing.inFlow
      if lexing.cursor.mark.column = 0 ∧ c = '%' then lexing.directive.map some
      else if lexing.cursor.isDocumentMark '-' then
        (lexing.betweenDocuments .documentStart).map some
      else if lexing.cursor.isDocumentMark '.' then
        (lexing.betweenDocuments .documentEnd).map some
      else if c = '[' then (lexing.flowStart .flowSequenceStart).map some
      else if c = '\x7b' then (lexing.flowStart .flowMappingStart).map some
      else if c = ']' then (lexing.flowEnd .flowSequenceEnd).map some
      else if c = '\x7d' then (lexing.flowEnd .flowMappingEnd).map some
      else if c = ',' then lexing.flowEntry.map some
      else if c = '-' ∧ endsWord rest then lexing.blockEntry.map some
      else if c = '?' ∧ (inFlow ∨ endsWord rest) then lexing.explicitKey.map some
      else if c = ':' ∧ (inFlow ∨ endsWord rest) then lexing.value.map some
      else if c = '*' then (lexing.anchor .alias).map some
      else if c = '&' then (lexing.anchor .anchor).map some
      else if c = '!' then lexing.tag.map some
      else if c = '|' ∧ !inFlow then (lexing.block true).map some
      else if c = '>' ∧ !inFlow then (lexing.block false).map some
      else if c = '\'' then (lexing.quoted true).map some
      else if c = '"' then (lexing.quoted false).map some
      else if beginsPlain inFlow c rest then lexing.plain.map some
      else .error .noTokenStart

/-- Add all tokens. Every token takes at least one character. -/
def run : (characters : Nat) → Lexing → Except Fault (List Token)
  | 0, _ => .error .unexpectedEnd
  | characters + 1, lexing =>
      match lexing.step with
      | .error e => .error e
      | .ok (some lexing) => run characters lexing
      | .ok none =>
          match (lexing.unroll none).removeKey with
          | .error e => .error e
          | .ok lexing => .ok lexing.tokens.reverse

end Lexing

/-- The tokens of a text. A byte order mark at its beginning is skipped. -/
def tokens (text : String) : Except Fault (List Token) :=
  let cs := text.toList
  let cs := if cs.head? = some '\ufeff' then cs.tail else cs
  if !cs.all isAllowed then .error .forbiddenCharacter
  else
    let cs := unifyBreaks cs
    Lexing.run (cs.length + 1) { cursor := ⟨{}, cs⟩ }

end FlexFold.Yaml
