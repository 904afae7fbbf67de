import FlexFold.Markup.Rewrite
import FlexFold.Proofs.Fold.NormalForm

/-!
The walk over a tree in two halves. The tree that it returns does not depend on any counter, and
the counters depend only on the lists of attributes that the walk meets, in order.
-/

namespace FlexFold.Markup

/-- What a fold makes of some attributes. -/
def Attribute.foldedList (as : List Attribute) : List Attribute := (Fold.attributes as {}).1

namespace Node

/-- A property of trees holds if it passes from the children of a node to the node. -/
@[elab_as_elim]
theorem induction {motive : Node → Prop}
    (step : ∀ node : Node, (∀ child ∈ node.children, motive child) → motive node)
    (node : Node) : motive node := by
  apply step
  intro child hchild
  have hsize : sizeOf child < sizeOf node := by
    have hlist : sizeOf child < sizeOf node.children := List.sizeOf_lt_of_mem hchild
    cases node
    simp only [mk.sizeOf_spec] at hlist ⊢
    omega
  exact induction step child
termination_by sizeOf node

mutual

/-- The tree that the walk returns. -/
def folded : Node → Node
  | ⟨kind, name, attributes, value, children, extra⟩ =>
      ⟨kind, name, attributes.map Attribute.foldedList, value, foldedChildren children, extra⟩

/-- The children that the walk returns. Only elements are folded. -/
def foldedChildren : List Node → List Node
  | [] => []
  | child :: children =>
      (if child.isElement then child.folded else child) :: foldedChildren children

end

mutual

/-- The lists of attributes that the walk folds, a node before the elements below it. -/
def visited : Node → List (List Attribute)
  | ⟨_, _, attributes, _, children, _⟩ => attributes.toList ++ visitedBelow children

/-- The lists of attributes that the walk folds in some children. -/
def visitedBelow : List Node → List (List Attribute)
  | [] => []
  | child :: children => (if child.isElement then child.visited else []) ++ visitedBelow children

end

theorem foldedChildren_eq_map (children : List Node) :
    foldedChildren children =
      children.map fun child => if child.isElement then child.folded else child := by
  induction children with
  | nil => rfl
  | cons child children ih => rw [foldedChildren, ih, List.map_cons]

theorem visitedBelow_eq_flatMap (children : List Node) :
    visitedBelow children =
      children.flatMap fun child => if child.isElement then child.visited else [] := by
  induction children with
  | nil => rfl
  | cons child children ih => rw [visitedBelow, ih, List.flatMap_cons]

theorem folded_eq (node : Node) :
    node.folded =
      { node with
        attributes := node.attributes.map Attribute.foldedList
        children := node.children.map fun child =>
          if child.isElement then child.folded else child } := by
  cases node
  rw [folded, foldedChildren_eq_map]

theorem visited_eq (node : Node) :
    node.visited = node.attributes.toList ++
      node.children.flatMap fun child => if child.isElement then child.visited else [] := by
  cases node
  rw [visited, visitedBelow_eq_flatMap]

@[simp] theorem folded_kind (node : Node) : node.folded.kind = node.kind := by rw [folded_eq]

@[simp] theorem folded_isElement (node : Node) : node.folded.isElement = node.isElement := by
  simp [isElement]

/-! ### The counters -/

/-- Count what the fold of one list of attributes does. -/
def countFold (stats : Stats) (as : List Attribute) : Stats := (foldNode (some as) stats).2

theorem foldNode_eq (attributes : Option (List Attribute)) (stats : Stats) :
    foldNode attributes stats =
      (attributes.map Attribute.foldedList, attributes.toList.foldl countFold stats) := by
  cases attributes with
  | none => rfl
  | some as =>
      simp only [foldNode, Option.map_some, Option.toList_some, List.foldl_cons, List.foldl_nil,
        countFold, Prod.mk.injEq, Option.some.injEq, and_true]
      exact Fold.attributes_fst_eq as _ _

mutual

theorem rewriteFrom_eq (node : Node) (stats : Stats) :
    node.rewriteFrom stats = (node.folded, node.visited.foldl countFold stats) := by
  match node with
  | ⟨kind, name, attributes, value, children, extra⟩ =>
      simp only [rewriteFrom, foldNode_eq, rewriteChildren_eq children, folded, visited,
        List.foldl_append]

theorem rewriteChildren_eq (children : List Node) (stats : Stats) :
    rewriteChildren children stats =
      (foldedChildren children, (visitedBelow children).foldl countFold stats) := by
  match children with
  | [] => rfl
  | child :: children =>
      rw [rewriteChildren]
      split
      · next h =>
          simp only [rewriteFrom_eq child, rewriteChildren_eq children, foldedChildren,
            visitedBelow, h, if_true, List.foldl_append]
      · next h =>
          simp only [rewriteChildren_eq children, foldedChildren, visitedBelow, h,
            Bool.false_eq_true, if_false, List.nil_append]

end

/-- The rewritten tree and the counters, each on its own. -/
theorem rewrite_eq (root : Node) : root.rewrite = (root.folded, root.visited.foldl countFold {}) :=
  rewriteFrom_eq root {}

end Node

end FlexFold.Markup
