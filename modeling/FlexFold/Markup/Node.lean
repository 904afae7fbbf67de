import FlexFold.Json.Value

/-!
Template trees: nodes with attributes and children. Fields that the library does not know are
kept with the node or attribute that carries them.
-/

namespace FlexFold.Markup

/-- The name of the attribute that holds the utility classes. -/
def classAttribute : String := "class"

/-- An attribute. One without a value, as in `<div fxFlex>`, differs from one with an empty
value. -/
structure Attribute where
  name : String
  value : Option String := none
  /-- Fields that are only passed on, sorted by key. -/
  extra : Json.Fields := []
deriving DecidableEq

namespace Attribute

def ofValue (name value : String) : Attribute := { name, value := some value }

def valueless (name : String) : Attribute := { name }

/-- The attribute `class=""`, which stands for a class attribute that is not there. -/
def emptyClass : Attribute := ofValue classAttribute ""

def isClass (a : Attribute) : Bool := a.name == classAttribute

/-- The value, which is empty if there is none. -/
def text (a : Attribute) : String := a.value.getD ""

end Attribute

/-- What a node is. Only elements are rewritten below the root. -/
inductive Kind where
  | element
  | other (name : String)
deriving DecidableEq, Repr

namespace Kind

/-- The kind that a name stands for. -/
def ofName (name : String) : Kind := if name = "element" then .element else .other name

def name : Kind → String
  | .element => "element"
  | .other name => name

end Kind

structure Node where
  kind : Kind
  name : Option String := none
  /-- Nodes that are no elements carry no attributes as a rule. -/
  attributes : Option (List Attribute) := none
  value : Option String := none
  children : List Node := []
  /-- Fields that are only passed on, sorted by key. -/
  extra : Json.Fields := []

namespace Node

mutual

/-- Equality of trees is decided node by node. -/
def decEq : (a b : Node) → Decidable (a = b)
  | ⟨k, n, as, v, cs, e⟩, ⟨k', n', as', v', cs', e'⟩ =>
      have := decEqList cs cs'
      decidable_of_iff (k = k' ∧ n = n' ∧ as = as' ∧ v = v' ∧ cs = cs' ∧ e = e') (by simp)

def decEqList : (a b : List Node) → Decidable (a = b)
  | [], [] => isTrue rfl
  | [], _ :: _ | _ :: _, [] => isFalse (by simp)
  | x :: a, y :: b =>
      have := decEq x y
      have := decEqList a b
      decidable_of_iff (x = y ∧ a = b) (by simp)

end

instance : DecidableEq Node := decEq

def root (children : List Node) : Node := { kind := .other "root", children }

instance : Inhabited Node := ⟨root []⟩

def element (name : String) (attributes : List Attribute) (children : List Node) : Node :=
  { kind := .element, name := some name, attributes := some attributes, children }

def text (value : String) : Node := { kind := .other "text", value := some value }

def isElement (node : Node) : Bool := node.kind == .element

def attribute? (node : Node) (name : String) : Option Attribute :=
  (node.attributes.getD []).find? fun a => a.name == name

/-- The text of the first class attribute. -/
def classValue? (node : Node) : Option String :=
  (node.attribute? classAttribute).map Attribute.text

end Node

end FlexFold.Markup
