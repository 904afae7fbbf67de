import FlexFold.Proofs.Markup.Walk

/-!
Trees that the walk leaves alone, and the counters that tell them from all others. One walk is
enough: a second one finds nothing to do.
-/

namespace FlexFold.Markup

/-! ### Lists of attributes -/

theorem Attribute.isFolded_foldedList (as : List Attribute) :
    Fold.IsFolded (Attribute.foldedList as) :=
  Fold.isFolded_attributes as {}

theorem Attribute.foldedList_eq_self_iff (as : List Attribute) :
    Attribute.foldedList as = as ↔ Fold.IsFolded as := by
  constructor
  · intro h
    exact Fold.isFolded_of_attributes_fst_eq h
  · intro h
    rw [foldedList, Fold.attributes_of_isFolded h]

namespace Node

/-! ### Counting -/

theorem foldl_tally_elements (as : List Attribute) (stats : Stats) :
    (as.foldl Fold.tally stats).elementsVisited = stats.elementsVisited ∧
      (as.foldl Fold.tally stats).elementsChanged = stats.elementsChanged := by
  induction as generalizing stats with
  | nil => exact ⟨rfl, rfl⟩
  | cons a as ih =>
      have htally : (Fold.tally stats a).elementsVisited = stats.elementsVisited ∧
          (Fold.tally stats a).elementsChanged = stats.elementsChanged := by
        unfold Fold.tally
        split
        · exact ⟨rfl, rfl⟩
        · split <;> exact ⟨rfl, rfl⟩
      rw [List.foldl_cons, (ih _).1, (ih _).2]
      exact htally

/-- A fold counts its visit, its directives, and a change if there is one. -/
theorem countFold_eq (stats : Stats) (as : List Attribute) :
    countFold stats as =
      let counted := (as.filter fun a => !a.isClass).foldl Fold.tally stats.countVisit
      if Attribute.foldedList as = as then counted else counted.countChange := by
  simp only [countFold, foldNode, Fold.attributes_snd]
  rw [Fold.attributes_fst_eq as stats.countVisit {}]
  rfl

theorem countFold_elementsVisited (stats : Stats) (as : List Attribute) :
    (countFold stats as).elementsVisited = stats.elementsVisited + 1 := by
  have htally := (foldl_tally_elements (as.filter fun a => !a.isClass) stats.countVisit).1
  rw [countFold_eq]
  dsimp only
  split <;> exact htally

theorem countFold_elementsChanged (stats : Stats) (as : List Attribute) :
    (countFold stats as).elementsChanged =
      stats.elementsChanged + if Attribute.foldedList as = as then 0 else 1 := by
  have htally := (foldl_tally_elements (as.filter fun a => !a.isClass) stats.countVisit).2
  rw [countFold_eq]
  dsimp only
  split
  · exact htally
  · exact congrArg (· + 1) htally

theorem foldl_countFold_elementsVisited (lists : List (List Attribute)) (stats : Stats) :
    (lists.foldl countFold stats).elementsVisited = stats.elementsVisited + lists.length := by
  induction lists generalizing stats with
  | nil => rfl
  | cons as lists ih =>
      rw [List.foldl_cons, ih, countFold_elementsVisited, List.length_cons]
      omega

theorem foldl_countFold_elementsChanged (lists : List (List Attribute)) (stats : Stats) :
    (lists.foldl countFold stats).elementsChanged =
      stats.elementsChanged + lists.countP fun as => Attribute.foldedList as ≠ as := by
  induction lists generalizing stats with
  | nil => rfl
  | cons as lists ih =>
      rw [List.foldl_cons, ih, countFold_elementsChanged, List.countP_cons]
      by_cases h : Attribute.foldedList as = as
      · simp [h]
      · simp only [h, if_false, ne_eq, not_false_eq_true, decide_true, if_true]
        omega

/-- Lists that are folded already are only visited. -/
theorem foldl_countFold_of_isFolded {lists : List (List Attribute)}
    (h : ∀ as ∈ lists, Fold.IsFolded as) (stats : Stats) :
    lists.foldl countFold stats =
      { stats with elementsVisited := stats.elementsVisited + lists.length } := by
  induction lists generalizing stats with
  | nil => rfl
  | cons as lists ih =>
      have has := h as (by simp)
      have hcount : countFold stats as = stats.countVisit := by
        simp only [countFold, foldNode, Fold.attributes_of_isFolded has, if_true]
      rw [List.foldl_cons, hcount, ih fun bs hbs => h bs (by simp [hbs]), List.length_cons]
      simp only [Stats.countVisit, Stats.mk.injEq, and_true]
      omega

/-! ### Trees that stay as they are -/

theorem foldedChild_eq_self_iff (child : Node) :
    (if child.isElement then child.folded else child) = child ↔
      (child.isElement → child.folded = child) := by
  by_cases h : child.isElement <;> simp [h]

theorem map_eq_self_iff {α : Type} {f : α → α} {l : List α} :
    l.map f = l ↔ ∀ a ∈ l, f a = a := by
  induction l with
  | nil => simp
  | cons a l ih => simp [ih]

/-- The walk leaves a tree alone if and only if each fold leaves its attributes alone. -/
theorem folded_eq_self_iff (node : Node) :
    node.folded = node ↔ ∀ as ∈ node.visited, Attribute.foldedList as = as := by
  induction node using Node.induction with
  | step node ih =>
      have hchildren : (node.children.map fun child =>
          if child.isElement then child.folded else child) = node.children ↔
          ∀ as ∈ node.children.flatMap (fun child =>
            if child.isElement then child.visited else []), Attribute.foldedList as = as := by
        rw [map_eq_self_iff]
        simp only [foldedChild_eq_self_iff, List.mem_flatMap]
        constructor
        · rintro h as ⟨child, hchild, has⟩
          by_cases helement : child.isElement
          · rw [if_pos helement] at has
            exact (ih child hchild).mp (h child hchild helement) as has
          · simp [helement] at has
        · intro h child hchild helement
          apply (ih child hchild).mpr
          intro as has
          exact h as ⟨child, hchild, by rwa [if_pos helement]⟩
      have hattributes : node.attributes.map Attribute.foldedList = node.attributes ↔
          ∀ as ∈ node.attributes.toList, Attribute.foldedList as = as := by
        cases node.attributes <;> simp
      rw [folded_eq, visited_eq]
      simp only [List.mem_append, or_imp, forall_and, ← hchildren, ← hattributes]
      cases node
      simp

/-- A second walk meets what the first one left. -/
theorem visited_folded (node : Node) :
    node.folded.visited = node.visited.map Attribute.foldedList := by
  induction node using Node.induction with
  | step node ih =>
      rw [visited_eq, visited_eq node, folded_eq, List.map_append, List.map_flatMap,
        List.flatMap_map]
      congr 1
      · cases node.attributes <;> rfl
      · rw [List.flatMap_def, List.flatMap_def]
        congr 1
        apply List.map_congr_left
        intro child hchild
        by_cases helement : child.isElement
        · simp [helement, ih child hchild]
        · simp [helement]

theorem isFolded_of_mem_visited_folded {node : Node} :
    ∀ as ∈ node.folded.visited, Fold.IsFolded as := by
  intro as has
  rw [visited_folded, List.mem_map] at has
  obtain ⟨before, -, rfl⟩ := has
  exact Attribute.isFolded_foldedList before

/-! ### Rewriting -/

theorem folded_folded (root : Node) : root.folded.folded = root.folded := by
  rw [folded_eq_self_iff]
  intro as has
  exact (Attribute.foldedList_eq_self_iff as).mpr (isFolded_of_mem_visited_folded as has)

/-- A folded tree is only visited. -/
theorem rewrite_folded (root : Node) :
    root.folded.rewrite = (root.folded, { elementsVisited := root.visited.length }) := by
  rw [rewrite_eq, folded_folded, foldl_countFold_of_isFolded isFolded_of_mem_visited_folded,
    visited_folded, List.length_map]
  simp only [Nat.zero_add]

theorem rewrite_elementsVisited (root : Node) :
    root.rewrite.2.elementsVisited = root.visited.length := by
  rw [rewrite_eq, foldl_countFold_elementsVisited]
  exact Nat.zero_add _

theorem rewrite_elementsChanged (root : Node) :
    root.rewrite.2.elementsChanged =
      root.visited.countP fun as => Attribute.foldedList as ≠ as := by
  rw [rewrite_eq, foldl_countFold_elementsChanged]
  exact Nat.zero_add _

theorem rewrite_isUnchanged_iff (root : Node) :
    root.rewrite.2.isUnchanged ↔ ∀ as ∈ root.visited, Attribute.foldedList as = as := by
  rw [Stats.isUnchanged, rewrite_elementsChanged, beq_iff_eq, List.countP_eq_zero]
  simp

/-- The counters of a walk that changes nothing. -/
theorem rewrite_snd_of_isUnchanged {root : Node} (h : root.rewrite.2.isUnchanged) :
    root.rewrite.2 = { elementsVisited := root.rewrite.2.elementsVisited } := by
  rw [rewrite_isUnchanged_iff] at h
  have hfolded : ∀ as ∈ root.visited, Fold.IsFolded as :=
    fun as has => (Attribute.foldedList_eq_self_iff as).mp (h as has)
  rw [rewrite_elementsVisited, rewrite_eq, foldl_countFold_of_isFolded hfolded]
  simp only [Nat.zero_add]

/-- Rewriting a rewritten tree changes nothing and counts only the nodes that were counted
before. -/
theorem rewrite_rewrite (root : Node) :
    root.rewrite.1.rewrite =
      (root.rewrite.1, { elementsVisited := root.rewrite.2.elementsVisited }) := by
  rw [rewrite_elementsVisited, rewrite_eq root]
  exact rewrite_folded root

end Node

end FlexFold.Markup
