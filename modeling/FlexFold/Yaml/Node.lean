import FlexFold.Yaml.Tokens

/-!
YAML documents as trees. Nodes that may be referred to carry the number of their anchor, and an
alias carries the number that its name had when it was met.
-/

namespace FlexFold.Yaml

inductive Node where
  | scalar (anchor : Option Nat) (tag : Option TagText) (style : Style) (text : String)
  | sequence (anchor : Option Nat) (items : List Node)
  | mapping (anchor : Option Nat) (entries : List (Node × Node))
  | alias (number : Nat)

/-- A node that is not written. -/
def Node.absent : Node := .scalar none none .plain ""

instance : Inhabited Node := ⟨.absent⟩

/-! ### Reading -/

/-- The handles that every document may use. -/
def commonHandles : List (String × TagText) :=
  [("!", .ofString "!"), ("!!", .ofString "tag:yaml.org,2002:")]

/-- What is left of a document, and what its first part has declared. -/
structure Reading where
  tokens : List Token
  /-- The number of each anchor. -/
  anchors : List (String × Nat) := []
  /-- The handles of tags that may be used, with what they stand for. -/
  handles : List (String × TagText) := commonHandles

namespace Reading

def head? (reading : Reading) : Option Token := reading.tokens.head?

def skip (reading : Reading) : Reading := { reading with tokens := reading.tokens.tail }

/-- Whether the next token is one of some tokens. -/
def nextIn (reading : Reading) (tokens : List Token) : Bool :=
  reading.head?.any tokens.contains

/-- Number an anchor. Its number is the number of names that were known before. -/
def define (reading : Reading) (name : Option String) : Option Nat × Reading :=
  match name with
  | none => (none, reading)
  | some name =>
      let number := reading.anchors.length
      (some number, { reading with
        anchors := (name, number) :: reading.anchors.filter fun anchor => anchor.1 ≠ name })

end Reading

/-- What reading a part of a document returns. -/
abbrev Read (α : Type) := Except Fault (α × Reading)

/-- The properties of a node: an anchor and a tag, in either order, each at most once. -/
def properties (reading : Reading) : Except Fault (Option String × Option TagText × Reading) :=
  let anchored : Option String × Reading := match reading.head? with
    | some (.anchor name) => (some name, reading.skip)
    | _ => (none, reading)
  let tagged (reading : Reading) : Read (Option TagText) := match reading.head? with
    | some (.tag "" text) => .ok (some text, reading.skip)
    | some (.tag handle text) =>
        match reading.handles.lookup handle with
        | some start => .ok (some (start ++ text), reading.skip)
        | none => .error .badTag
    | _ => .ok (none, reading)
  match tagged anchored.2 with
  | .error e => .error e
  | .ok (tag, reading) =>
      match anchored.1, reading.head? with
      | none, some (.anchor name) => .ok (some name, tag, reading.skip)
      | name, _ => .ok (name, tag, reading)

/-- How a collection of some style is written, as far as its nodes have to know. -/
inductive Place where
  /-- In a flow collection. -/
  | flow
  /-- An item of a block or a whole document. -/
  | block
  /-- A key or value of a block mapping, where the hyphens of a sequence need no indentation. -/
  | entry
deriving DecidableEq

mutual

/-- Read a node, going at most `depth` parts deep. -/
def node (place : Place) : (depth : Nat) → Reading → Read Node
  | 0, _ => .error .missingNode
  | depth + 1, reading =>
      match reading.head? with
      | some (.alias name) =>
          match reading.anchors.find? fun anchor => anchor.1 = name with
          | some (_, number) => .ok (.alias number, reading.skip)
          | none => .error .unknownAlias
      | _ =>
          match properties reading with
          | .error e => .error e
          | .ok (name, tag, reading) =>
              let (number, reading) := reading.define name
              match reading.head?, place with
              | some .blockEntry, .entry =>
                  (compactItems depth [] reading).map (.map (.sequence number) id)
              | some (.scalar text style), _ => .ok (.scalar number tag style text, reading.skip)
              | some .flowSequenceStart, _ =>
                  (flowItems depth [] reading.skip).map (.map (.sequence number) id)
              | some .flowMappingStart, _ =>
                  (flowEntries depth [] reading.skip).map (.map (.mapping number) id)
              | some .blockSequenceStart, .block | some .blockSequenceStart, .entry =>
                  (blockItems depth [] reading.skip).map (.map (.sequence number) id)
              | some .blockMappingStart, .block | some .blockMappingStart, .entry =>
                  (blockEntries depth [] reading.skip).map (.map (.mapping number) id)
              | _, _ =>
                  if number.isSome || tag.isSome then .ok (.scalar number tag .plain "", reading)
                  else .error .missingNode

/-- Read a node unless one of some tokens comes next. -/
def nodeUnless (place : Place) (ends : List Token) : (depth : Nat) → Reading → Read Node
  | 0, _ => .error .missingNode
  | depth + 1, reading =>
      if reading.nextIn ends then .ok (.absent, reading) else node place depth reading

/-- The items of a block sequence after those that were read back to front. -/
def blockItems : (depth : Nat) → List Node → Reading → Read (List Node)
  | 0, _, _ => .error .missingNode
  | depth + 1, before, reading =>
      match reading.head? with
      | some .blockEntry =>
          match nodeUnless .block [.blockEntry, .blockEnd] depth reading.skip with
          | .error e => .error e
          | .ok (item, reading) => blockItems depth (item :: before) reading
      | some .blockEnd => .ok (before.reverse, reading.skip)
      | _ => .error .missingSeparator

/-- The items of a sequence whose hyphens are not indented. -/
def compactItems : (depth : Nat) → List Node → Reading → Read (List Node)
  | 0, _, _ => .error .missingNode
  | depth + 1, before, reading =>
      match reading.head? with
      | some .blockEntry =>
          match nodeUnless .block [.blockEntry, .key, .value, .blockEnd] depth reading.skip with
          | .error e => .error e
          | .ok (item, reading) => compactItems depth (item :: before) reading
      | _ => .ok (before.reverse, reading)

def blockEntries : (depth : Nat) → List (Node × Node) → Reading → Read (List (Node × Node))
  | 0, _, _ => .error .missingNode
  | depth + 1, before, reading =>
      match reading.head? with
      | some .key =>
          match nodeUnless .entry [.key, .value, .blockEnd] depth reading.skip with
          | .error e => .error e
          | .ok (key, reading) =>
              match blockValue depth reading with
              | .error e => .error e
              | .ok (value, reading) => blockEntries depth ((key, value) :: before) reading
      | some .blockEnd => .ok (before.reverse, reading.skip)
      | _ => .error .missingSeparator

/-- The value of a block mapping, if there is one. -/
def blockValue : (depth : Nat) → Reading → Read Node
  | 0, _ => .error .missingNode
  | depth + 1, reading =>
      match reading.head? with
      | some .value => nodeUnless .entry [.key, .value, .blockEnd] depth reading.skip
      | _ => .ok (.absent, reading)

/-- The items of a flow sequence. An item with a key is a mapping of one entry. -/
def flowItems : (depth : Nat) → List Node → Reading → Read (List Node)
  | 0, _, _ => .error .missingNode
  | depth + 1, before, reading =>
      let item (reading : Reading) : Read (List Node) :=
        match reading.head? with
        | some .flowSequenceEnd => .ok (before.reverse, reading.skip)
        | some .key =>
            match flowPair depth reading.skip with
            | .error e => .error e
            | .ok (pair, reading) => flowItems depth (.mapping none [pair] :: before) reading
        | _ =>
            match node .flow depth reading with
            | .error e => .error e
            | .ok (item, reading) => flowItems depth (item :: before) reading
      match reading.head? with
      | some .flowSequenceEnd => .ok (before.reverse, reading.skip)
      | some .flowEntry => if before.isEmpty then .error .missingNode else item reading.skip
      | _ => if before.isEmpty then item reading else .error .missingSeparator

/-- The only entry of a mapping in a flow sequence, after the sign of its key. -/
def flowPair : (depth : Nat) → Reading → Read (Node × Node)
  | 0, _ => .error .missingNode
  | depth + 1, reading =>
      if reading.nextIn [.value, .flowEntry, .flowSequenceEnd] then
        flowPairValue depth .absent reading.skip
      else
        match node .flow depth reading with
        | .error e => .error e
        | .ok (key, reading) => flowPairValue depth key reading

/-- The value of that entry, if there is one. -/
def flowPairValue : (depth : Nat) → Node → Reading → Read (Node × Node)
  | 0, _, _ => .error .missingNode
  | depth + 1, key, reading =>
      match reading.head? with
      | some .value =>
          match nodeUnless .flow [.flowEntry, .flowSequenceEnd] depth reading.skip with
          | .error e => .error e
          | .ok (value, reading) => .ok ((key, value), reading)
      | _ => .ok ((key, .absent), reading)

/-- The entries of a flow mapping. A key may stand without its sign, and then has no value. -/
def flowEntries : (depth : Nat) → List (Node × Node) → Reading → Read (List (Node × Node))
  | 0, _, _ => .error .missingNode
  | depth + 1, before, reading =>
      let entry (reading : Reading) : Read (List (Node × Node)) :=
        match reading.head? with
        | some .flowMappingEnd => .ok (before.reverse, reading.skip)
        | some .key =>
            match nodeUnless .flow [.value, .flowEntry, .flowMappingEnd] depth reading.skip with
            | .error e => .error e
            | .ok (key, reading) =>
                match flowValue depth reading with
                | .error e => .error e
                | .ok (value, reading) => flowEntries depth ((key, value) :: before) reading
        | _ =>
            match node .flow depth reading with
            | .error e => .error e
            | .ok (key, reading) => flowEntries depth ((key, .absent) :: before) reading
      match reading.head? with
      | some .flowMappingEnd => .ok (before.reverse, reading.skip)
      | some .flowEntry => if before.isEmpty then .error .missingNode else entry reading.skip
      | _ => if before.isEmpty then entry reading else .error .missingSeparator

/-- The value of an entry of a flow mapping, if there is one. -/
def flowValue : (depth : Nat) → Reading → Read Node
  | 0, _ => .error .missingNode
  | depth + 1, reading =>
      match reading.head? with
      | some .value => nodeUnless .flow [.flowEntry, .flowMappingEnd] depth reading.skip
      | _ => .ok (.absent, reading)

end

end FlexFold.Yaml
