import FlexFold.Json.Message
import FlexFold.Json.Reader
import FlexFold.Markup.Node

/-!
Template trees as JSON documents. Known fields are written first and in a fixed order, absent
ones are left out, and a node always has its list of children.
-/

namespace FlexFold.Markup

open Json (Value Fields Reader Cause Layout optionalField)
open Json.Reader (Gather)

/-! ### Writing -/

/-- The fields of an attribute in the order in which they are written. -/
def Attribute.toValue (a : Attribute) : Value :=
  .object (("name", .string a.name) :: optionalField "value" .string a.value ++ a.extra)

mutual

/-- The fields of a node in the order in which they are written. -/
def Node.toValue : Node → Value
  | ⟨kind, name, attributes, value, children, extra⟩ =>
      .object (("type", .string kind.name) ::
        optionalField "name" .string name ++
        optionalField "attrs" (fun as => .array (as.map Attribute.toValue)) attributes ++
        optionalField "value" .string value ++
        ("children", .array (Node.listToValues children)) :: extra)

/-- Each node of a list as a value. -/
def Node.listToValues : List Node → List Value
  | [] => []
  | node :: nodes => node.toValue :: Node.listToValues nodes

end

def Node.print (layout : Layout) (node : Node) : String := node.toValue.text layout

/-! ### Reading -/

/-- The fields of an attribute that were met so far. -/
structure AttributeDraft where
  name : Option String := none
  value : Option (Option String) := none
  extra : Fields := []

/-- How an attribute is gathered, given the reader of its unknown fields. -/
def AttributeDraft.gather (other : Reader Value) : Gather AttributeDraft Attribute where
  start := {}
  field draft key :=
    if key = "name" then
      if draft.name.isSome then .error (.duplicateField key)
      else .ok (Reader.string.map fun s => { draft with name := some s })
    else if key = "value" then
      if draft.value.isSome then .error (.duplicateField key)
      else .ok (Reader.string.nullable.map fun v => { draft with value := some v })
    else .ok (other.map fun v => { draft with extra := Fields.insert key v draft.extra })
  finish draft :=
    match draft.name with
    | none => .error (.missingField "name")
    | some name => .ok { name, value := draft.value.join, extra := draft.extra }

/-- An attribute in which `budget` containers may stand in one another, its own object
included. -/
def Attribute.reader (budget : Nat) : Reader Attribute :=
  Reader.object "struct Attribute" (budget ≠ 0)
    (AttributeDraft.gather (Value.reader (budget - 1)))

/-- The fields of a node that were met so far. -/
structure NodeDraft where
  kind : Option Kind := none
  name : Option (Option String) := none
  attributes : Option (Option (List Attribute)) := none
  value : Option (Option String) := none
  children : Option (List Node) := none
  extra : Fields := []

/-- How a node is gathered, given the readers of its parts. -/
def NodeDraft.gather (attributes : Reader (List Attribute)) (children : Reader (List Node))
    (other : Reader Value) : Gather NodeDraft Node where
  start := {}
  field draft key :=
    if key = "type" then
      if draft.kind.isSome then .error (.duplicateField key)
      else .ok (Reader.string.map fun s => { draft with kind := some (.ofName s) })
    else if key = "name" then
      if draft.name.isSome then .error (.duplicateField key)
      else .ok (Reader.string.nullable.map fun v => { draft with name := some v })
    else if key = "attrs" then
      if draft.attributes.isSome then .error (.duplicateField key)
      else .ok (attributes.nullable.map fun v => { draft with attributes := some v })
    else if key = "value" then
      if draft.value.isSome then .error (.duplicateField key)
      else .ok (Reader.string.nullable.map fun v => { draft with value := some v })
    else if key = "children" then
      if draft.children.isSome then .error (.duplicateField key)
      else .ok (children.map fun v => { draft with children := some v })
    else .ok (other.map fun v => { draft with extra := Fields.insert key v draft.extra })
  finish draft :=
    match draft.kind with
    | none => .error (.missingField "type")
    | some kind =>
        .ok { kind
              name := draft.name.join
              attributes := draft.attributes.join
              value := draft.value.join
              children := draft.children.getD []
              extra := draft.extra }

/-- The attributes of a node that leaves `budget` containers. -/
def Attribute.listReader (budget : Nat) : Reader (List Attribute) :=
  Reader.array (if budget = 0 then none else some (Attribute.reader (budget - 1)))

/-- A node in which `budget` containers may stand in one another, its own object included. -/
def Node.reader : (budget : Nat) → Reader Node
  | 0 => nodeWith 0 none
  | 1 => nodeWith 1 none
  | budget + 2 => nodeWith (budget + 2) (some (Node.reader budget))
where
  /-- A node, given the reader of each of its children. -/
  nodeWith (budget : Nat) (child : Option (Reader Node)) : Reader Node :=
    Reader.object "struct Node" (budget ≠ 0)
      (NodeDraft.gather (Attribute.listReader (budget - 1)) (Reader.array child)
        (Value.reader (budget - 1)))

def Node.parse (source : String) : Except Json.Error Node :=
  (Node.reader Json.maxNesting).parse source

end FlexFold.Markup
