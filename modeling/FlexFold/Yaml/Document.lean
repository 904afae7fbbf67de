import FlexFold.Yaml.Node

/-!
A text with at most one YAML document, and what its aliases refer to.
-/

namespace FlexFold.Yaml

/-! ### Reading -/

/-- The directives before a document. There is at most one version, and each handle is declared
at most once. -/
def directives (hasVersion : Bool) (declared : List (String × TagText)) :
    List Token → Read Unit
  | .version major minor :: tokens =>
      if hasVersion ∨ major ≠ 1 ∨ (minor ≠ 1 ∧ minor ≠ 2) then .error .badDirective
      else directives true declared tokens
  | .tagHandle handle start :: tokens =>
      if (declared.lookup handle).isSome then .error .badDirective
      else directives hasVersion ((handle, start) :: declared) tokens
  | .documentStart :: tokens => .ok ((), { tokens, handles := declared ++ commonHandles })
  | _ => .error .missingDocumentStart

/-- The number of parts that may stand in one another. Every token opens only a few. -/
def depthOf (tokens : List Token) : Nat := 4 * tokens.length + 4

def firstDocument (tokens : List Token) : Read Node :=
  let root (reading : Reading) : Read Node := node .block (depthOf tokens) reading
  let isDirective : Token → Bool
    | .version .. | .tagHandle .. | .documentStart => true
    | _ => false
  if tokens.head?.any isDirective then
    match directives false [] tokens with
    | .error e => .error e
    | .ok ((), reading) =>
        match reading.head? with
        | none => .ok (.absent, reading)
        | some token =>
            if isDirective token || token == .documentEnd then .ok (.absent, reading)
            else root reading
  else root { tokens }

/-- The root of the only document, or nothing if there is no document. -/
def parse (text : String) : Except Fault (Option Node) :=
  match tokens text with
  | .error e => .error e
  | .ok [] => .ok none
  | .ok tokens =>
      match firstDocument tokens with
      | .error e => .error e
      | .ok (root, reading) =>
          if reading.tokens.all (· == .documentEnd) then .ok (some root)
          else .error .severalDocuments

/-! ### Aliases -/

mutual

/-- The nodes with a number, in the order in which they begin. -/
def Node.numbered : Node → List (Nat × Node)
  | .scalar (some n) tag style text => [(n, .scalar (some n) tag style text)]
  | .sequence (some n) items => (n, .sequence (some n) items) :: Node.numberedItems items
  | .sequence none items => Node.numberedItems items
  | .mapping (some n) entries => (n, .mapping (some n) entries) :: Node.numberedEntries entries
  | .mapping none entries => Node.numberedEntries entries
  | .scalar none .. | .alias _ => []

/-- The nodes with a number in a list. -/
def Node.numberedItems : List Node → List (Nat × Node)
  | [] => []
  | item :: items => item.numbered ++ Node.numberedItems items

/-- The nodes with a number in some entries. -/
def Node.numberedEntries : List (Node × Node) → List (Nat × Node)
  | [] => []
  | (key, value) :: entries => key.numbered ++ value.numbered ++ Node.numberedEntries entries

end

/-- The node that stands for another one in a document: for an alias, the last node with its
number. -/
def Node.resolve (root node : Node) : Node :=
  match node with
  | .alias n => ((root.numbered.reverse.find? fun entry => entry.1 = n).map Prod.snd).getD .absent
  | node => node

end FlexFold.Yaml
