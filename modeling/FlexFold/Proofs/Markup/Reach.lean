import FlexFold.Proofs.Markup.Walk

/-!
What the walk changes. A path of child numbers leads from the root to a node; the walk folds the
attributes of the nodes that a path over elements leads to, and leaves everything else alone.
-/

namespace FlexFold.Markup.Node

/-- The node that a path leads to. -/
def at? : Node → List Nat → Option Node
  | node, [] => some node
  | node, i :: path => node.children[i]?.bind fun child => child.at? path

/-- A path leads over elements only. The root, where it begins, may be anything. -/
inductive Reaches : Node → List Nat → Prop where
  | root (node : Node) : Reaches node []
  | child {node child : Node} {i : Nat} {path : List Nat} (hchild : node.children[i]? = some child)
      (helement : child.isElement) : Reaches child path → Reaches node (i :: path)

theorem reaches_cons_iff {node child : Node} {i : Nat} (path : List Nat)
    (hchild : node.children[i]? = some child) :
    Reaches node (i :: path) ↔ child.isElement ∧ Reaches child path := by
  constructor
  · intro h
    cases h with
    | child hchild' helement hpath =>
        rw [hchild, Option.some.injEq] at hchild'
        subst hchild'
        exact ⟨helement, hpath⟩
  · rintro ⟨helement, hpath⟩
    exact .child hchild helement hpath

theorem folded_children_getElem? (node : Node) (i : Nat) :
    node.folded.children[i]? =
      node.children[i]?.map fun child => if child.isElement then child.folded else child := by
  rw [folded_eq, List.getElem?_map]

theorem at?_folded_of_reaches {node : Node} {path : List Nat} (h : Reaches node path) :
    node.folded.at? path = (node.at? path).map folded := by
  induction h with
  | root node => rfl
  | child hchild helement _ ih =>
      simp only [at?, folded_children_getElem?, hchild, Option.map_some, Option.bind_some,
        helement, if_true]
      exact ih

theorem at?_folded_of_not_reaches {node : Node} {path : List Nat} (h : ¬ Reaches node path) :
    node.folded.at? path = node.at? path := by
  induction path generalizing node with
  | nil => exact (h (.root node)).elim
  | cons i path ih =>
      simp only [at?, folded_children_getElem?]
      cases hchild : node.children[i]? with
      | none => rfl
      | some child =>
          rw [reaches_cons_iff path hchild] at h
          simp only [Option.map_some, Option.bind_some]
          by_cases helement : child.isElement
          · rw [if_pos helement]
            exact ih fun hpath => h ⟨helement, hpath⟩
          · rw [if_neg helement]

/-- Two nodes that agree in all but their attributes and what is below them. -/
structure SameFrame (a b : Node) : Prop where
  kind : a.kind = b.kind
  name : a.name = b.name
  value : a.value = b.value
  extra : a.extra = b.extra
  childCount : a.children.length = b.children.length

theorem sameFrame_folded (node : Node) : SameFrame node.folded node := by
  rw [folded_eq]
  exact ⟨rfl, rfl, rfl, rfl, List.length_map _⟩

/-- What the walk makes of the node at one place. -/
structure Refolded (reached : Prop) (before after : Node) : Prop where
  sameFrame : SameFrame after before
  /-- The counters that the fold starts with make no difference. -/
  attributes : reached → ∀ stats,
    after.attributes = before.attributes.map fun as => (Fold.attributes as stats).1
  isFolded : reached → ∀ as ∈ after.attributes, Fold.IsFolded as
  untouched : ¬ reached → after = before

theorem refolded_folded {reached : Prop} (h : reached) (node : Node) :
    Refolded reached node node.folded where
  sameFrame := sameFrame_folded node
  attributes := by
    intro _ stats
    rw [folded_eq]
    cases node.attributes with
    | none => rfl
    | some as => exact congrArg some (Fold.attributes_fst_eq as {} stats)
  isFolded := by
    intro _ as has
    rw [folded_eq, Option.mem_def, Option.map_eq_some_iff] at has
    obtain ⟨before, -, rfl⟩ := has
    exact Fold.isFolded_attributes before {}
  untouched hnot := (hnot h).elim

/-- The walk folds the attributes of every node that it reaches and changes nothing else: no node
comes or goes, and what it does not reach stays as it is with everything below it. -/
theorem at?_rewrite (root : Node) (path : List Nat) :
    (root.at? path = none ↔ root.rewrite.1.at? path = none) ∧
      ∀ before ∈ root.at? path, ∀ after ∈ root.rewrite.1.at? path,
        Refolded (Reaches root path) before after := by
  rw [rewrite_eq]
  by_cases h : Reaches root path
  · rw [at?_folded_of_reaches h]
    refine ⟨by simp, ?_⟩
    intro before hbefore after hafter
    rw [Option.mem_def] at hbefore
    rw [hbefore, Option.map_some, Option.mem_some] at hafter
    subst hafter
    exact refolded_folded h before
  · rw [at?_folded_of_not_reaches h]
    refine ⟨Iff.rfl, ?_⟩
    intro before hbefore after hafter
    obtain rfl := Option.mem_unique hbefore hafter
    exact
      { sameFrame := ⟨rfl, rfl, rfl, rfl, rfl⟩
        attributes := fun hreached => (h hreached).elim
        isFolded := fun hreached => (h hreached).elim
        untouched := fun _ => rfl }

end FlexFold.Markup.Node
