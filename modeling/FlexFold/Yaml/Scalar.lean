import FlexFold.Yaml.Token

/-!
The text of scalars. A line end within a scalar is folded: alone it becomes a space, and of
several the first one is dropped. Only block scalars of the literal style keep them all.
-/

namespace FlexFold.Yaml

/-- What a scanned part of a document returns. -/
abbrev Scanned (α : Type) := Except Fault (α × Cursor)

/-! ### Folding -/

/-- The blanks and line ends since the last character of a scalar. -/
structure Gap where
  /-- Blanks before the first line end, back to front. -/
  blanks : List Char := []
  /-- Whether a line has ended. -/
  isFolded : Bool := false
  /-- The first line end. A line end that was escaped counts as none. -/
  first : List Char := []
  /-- The other line ends, back to front. -/
  others : List Char := []

namespace Gap

/-- Add a blank or a line end. Blanks at the beginning of a line do not count. -/
def push (gap : Gap) (c : Char) : Gap :=
  if isBreak c then
    if gap.isFolded then { gap with others := c :: gap.others }
    else { blanks := [], isFolded := true, first := [c] }
  else if gap.isFolded then gap
  else { gap with blanks := c :: gap.blanks }

/-- What becomes of the gap, in front of the characters before it, back to front. -/
def onto (gap : Gap) (before : List Char) : List Char :=
  if gap.isFolded then
    if gap.first = ['\n'] then
      if gap.others = [] then ' ' :: before else gap.others ++ before
    else gap.others ++ gap.first ++ before
  else gap.blanks ++ before

end Gap

/-! ### Plain scalars -/

/-- A plain scalar after some of its characters, back to front. It ends at a comment, at a colon
before a blank, at a smaller indentation, between documents and, in a flow collection, at its
indicators. The flag tells whether a line has ended since the last character. -/
def plainFrom (inFlow : Bool) (indent : Nat) (before : List Char) (gap : Option Gap)
    (mark : Mark) : List Char → Scanned (String × Bool)
  | [] => .ok ((String.ofList before.reverse, (gap.elim false Gap.isFolded)), ⟨mark, []⟩)
  | c :: rest =>
      let here : Cursor := ⟨mark, c :: rest⟩
      let done : Scanned (String × Bool) :=
        .ok ((String.ofList before.reverse, (gap.elim false Gap.isFolded)), here)
      if isBlank c || isBreak c then
        let known := gap.getD {}
        if known.isFolded && c == '\t' && mark.column < indent then .error .badIndentation
        else plainFrom inFlow indent before (some (known.push c)) (mark.step c) rest
      else
        let afterGap := gap.isSome
        if afterGap && !inFlow && mark.column < indent then done
        else if (afterGap || before = []) && (here.isBetweenDocuments || c == '#') then done
        else if inFlow && c == ':' && (rest.head?.any fun d => ",?[]\x7b\x7d".contains d) then
          .error .unexpectedIndicator
        else if (c == ':' && endsWord rest) || (inFlow && ",[]\x7b\x7d".contains c) then done
        else
          plainFrom inFlow indent (c :: (gap.elim before fun g => g.onto before)) none
            (mark.step c) rest

/-! ### Quoted scalars -/

/-- What the next character of a quoted scalar belongs to. -/
inductive QuotedState where
  | text
  /-- A gap since the last character. -/
  | gap (gap : Gap)
  /-- A backslash. -/
  | escape
  /-- An escape with a number of hexadecimal digits still to come. -/
  | hex (digits value : Nat)
  /-- A quote, which ends the scalar unless it is single and another one follows. -/
  | quote

/-- The character that an escape of one letter stands for. -/
def escapedChar? (c : Char) : Option Char :=
  match c with
  | '0' => some '\x00'
  | 'a' => some '\x07'
  | 'b' => some '\x08'
  | 't' => some '\t'
  | '\t' => some '\t'
  | 'n' => some '\n'
  | 'v' => some '\x0b'
  | 'f' => some '\x0c'
  | 'r' => some '\r'
  | 'e' => some '\x1b'
  | ' ' => some ' '
  | '"' => some '"'
  | '/' => some '/'
  | '\\' => some '\\'
  | 'N' => some '\u0085'
  | '_' => some '\u00a0'
  | 'L' => some '\u2028'
  | 'P' => some '\u2029'
  | _ => none

/-- The number of hexadecimal digits after the letter of an escape. -/
def hexLength? (c : Char) : Option Nat :=
  match c with
  | 'x' => some 2
  | 'u' => some 4
  | 'U' => some 8
  | _ => none

def hexDigit? (c : Char) : Option Nat :=
  if '0' ≤ c && c ≤ '9' then some (c.toNat - 48)
  else if 'a' ≤ c && c ≤ 'f' then some (c.toNat - 87)
  else if 'A' ≤ c && c ≤ 'F' then some (c.toNat - 55)
  else none

/-- Add a character that is no part of an escape. -/
def quotedText (isSingle : Bool) (before : List Char) (state : QuotedState) (here : Cursor)
    (c : Char) : Except Fault (List Char × QuotedState) :=
  if here.isBetweenDocuments then .error .unexpectedIndicator
  else if isBlank c || isBreak c then
    match state with
    | .gap gap => .ok (before, .gap (gap.push c))
    | _ => .ok (before, .gap (Gap.push {} c))
  else
    let before := match state with
      | .gap gap => gap.onto before
      | _ => before
    if c = (if isSingle then '\'' else '"') then .ok (before, .quote)
    else if !isSingle && c == '\\' then .ok (before, .escape)
    else .ok (c :: before, .text)

/-- Add a character to a quoted scalar, or nothing if the scalar has ended. -/
def quotedStep (isSingle : Bool) (before : List Char) (state : QuotedState) (here : Cursor)
    (c : Char) : Except Fault (Option (List Char × QuotedState)) :=
  match state with
  | .quote =>
      if isSingle ∧ c = '\'' then .ok (some ('\'' :: before, .text)) else .ok none
  | .escape =>
      if isBreak c then .ok (some (before, .gap { isFolded := true }))
      else
        match escapedChar? c, hexLength? c with
        | some d, _ => .ok (some (d :: before, .text))
        | none, some n => .ok (some (before, .hex n 0))
        | none, none => .error .badEscape
  | .hex digits value =>
      match hexDigit? c with
      | none => .error .badEscape
      | some d =>
          let value := value * 16 + d
          if 1 < digits then .ok (some (before, .hex (digits - 1) value))
          else if h : value.isValidChar then
            .ok (some (Char.ofNatAux value h :: before, .text))
          else .error .badEscape
  | .text | .gap _ => (quotedText isSingle before state here c).map some

/-- A quoted scalar after its opening quote and some of its characters, back to front. -/
def quotedFrom (isSingle : Bool) (before : List Char) (state : QuotedState) (mark : Mark) :
    List Char → Scanned String
  | [] =>
      match state with
      | .quote => .ok (String.ofList before.reverse, ⟨mark, []⟩)
      | _ => .error .unexpectedEnd
  | c :: rest =>
      match quotedStep isSingle before state ⟨mark, c :: rest⟩ c with
      | .error e => .error e
      | .ok none => .ok (String.ofList before.reverse, ⟨mark, c :: rest⟩)
      | .ok (some (before, state)) => quotedFrom isSingle before state (mark.step c) rest

/-! ### Block scalars -/

/-- What happens to the line ends at the end of a block scalar. -/
inductive Chomping where
  | strip
  | clip
  | keep
deriving DecidableEq, Repr

structure BlockHeader where
  isLiteral : Bool
  chomping : Chomping := .clip
  /-- The indentation relative to the parent, if it is given. -/
  increment : Option Nat := none

/-- The indicators after `|` or `>`, in either order. -/
def blockIndicators (header : BlockHeader) (cursor : Cursor) : Scanned BlockHeader :=
  let chomping? (c : Char) : Option Chomping :=
    if c = '+' then some .keep else if c = '-' then some .strip else none
  let digit? (c : Char) : Option Nat :=
    if '0' ≤ c && c ≤ '9' then some (c.toNat - 48) else none
  match cursor.rest with
  | [] => .ok (header, cursor)
  | c :: rest =>
      match chomping? c, digit? c with
      | some chomping, _ =>
          let header := { header with chomping }
          match rest.head?.bind digit? with
          | some 0 => .error .badBlockHeader
          | some n => .ok ({ header with increment := some n }, cursor.drop 2)
          | none => .ok (header, cursor.drop 1)
      | none, some 0 => .error .badBlockHeader
      | none, some n =>
          let header := { header with increment := some n }
          match rest.head?.bind chomping? with
          | some chomping => .ok ({ header with chomping }, cursor.drop 2)
          | none => .ok (header, cursor.drop 1)
      | none, none => .ok (header, cursor)

/-- The rest of the line of a header: blanks and perhaps a comment. -/
def blockHeaderEnd (cursor : Cursor) : Except Fault Cursor :=
  let cursor := cursor.dropWhile isBlank
  let cursor :=
    if cursor.rest.head? = some '#' then cursor.dropWhile fun c => !isBreak c else cursor
  match cursor.rest with
  | [] => .ok cursor
  | c :: _ => if isBreak c then .ok (cursor.drop 1) else .error .badBlockHeader

/-- What is known of a block scalar after some of its characters. -/
structure BlockState where
  /-- The characters, back to front. -/
  text : List Char := []
  /-- The end of the last line that has text. -/
  lineEnd : List Char := []
  /-- The ends of the empty lines after it, back to front. -/
  emptyLines : List Char := []
  /-- Whether the last line with text begins with a blank. Such lines are not folded. -/
  beginsBlank : Bool := false
  /-- Whether the current line has text. -/
  inLine : Bool := false
  /-- The greatest indentation of an empty line so far. -/
  deepest : Nat := 0

def BlockState.beginLine (header : BlockHeader) (state : BlockState) (c : Char) : BlockState :=
  let text :=
    if !header.isLiteral && state.lineEnd == ['\n'] && !state.beginsBlank && !isBlank c then
      if state.emptyLines = [] then ' ' :: state.text else state.emptyLines ++ state.text
    else state.emptyLines ++ state.lineEnd ++ state.text
  { text := c :: text, beginsBlank := isBlank c, inLine := true }

/-- The text of a block scalar that has ended. -/
def BlockState.finish (header : BlockHeader) (state : BlockState) : String :=
  let text := match header.chomping with
    | .strip => state.text
    | .clip => state.lineEnd ++ state.text
    | .keep => state.emptyLines ++ state.lineEnd ++ state.text
  String.ofList text.reverse

/-- Add a character to a block scalar, or nothing if the scalar has ended. The indentation is that
of the first line with text if it is not known, and never less than `least`. -/
def blockStep (header : BlockHeader) (least : Nat) (indent : Option Nat) (state : BlockState)
    (column : Nat) (c : Char) : Except Fault (Option (Option Nat × BlockState)) :=
  let isIndentation := indent.all fun n => column < n
  if state.inLine then
    if isBreak c then .ok (some (indent, { state with inLine := false, lineEnd := [c] }))
    else .ok (some (indent, { state with text := c :: state.text }))
  else if isIndentation && c == ' ' then
    .ok (some (indent, { state with deepest := max state.deepest (column + 1) }))
  else if isIndentation && c == '\t' then .error .badIndentation
  else if isBreak c then
    .ok (some (indent, { state with emptyLines := c :: state.emptyLines }))
  else
    let n := indent.getD (max least state.deepest)
    if column = n then .ok (some (some n, state.beginLine header c)) else .ok none

/-- The lines of a block scalar after some of its characters. -/
def blockFrom (header : BlockHeader) (least : Nat) (indent : Option Nat) (state : BlockState)
    (mark : Mark) : List Char → Scanned String
  | [] => .ok (state.finish header, ⟨mark, []⟩)
  | c :: rest =>
      match blockStep header least indent state mark.column c with
      | .error e => .error e
      | .ok none => .ok (state.finish header, ⟨mark, c :: rest⟩)
      | .ok (some (indent, state)) => blockFrom header least indent state (mark.step c) rest

/-- A block scalar from its first indicator on, inside a block with some indentation, if any. -/
def blockScalar (outer : Option Nat) (isLiteral : Bool) (cursor : Cursor) : Scanned String :=
  match blockIndicators { isLiteral } (cursor.drop 1) with
  | .error e => .error e
  | .ok (header, cursor) =>
      match blockHeaderEnd cursor with
      | .error e => .error e
      | .ok cursor =>
          let least := outer.elim 1 fun n => n + 1
          blockFrom header least (header.increment.map fun n => outer.elim n fun m => m + n) {}
            cursor.mark cursor.rest

end FlexFold.Yaml
