import FlexFold.Proofs.Fold.Counting
import FlexFold.Proofs.Markup.FixedPoint

/-!
The counters of a walk beside a census of the tree: the nodes that the walk folds are listed before
the walk, and every counter is a number that is taken from this list.
-/

namespace FlexFold.Markup

open Fold (directiveNames bindingCount directiveNames_append bindingCount_append)

/-- What the counters say of the lists of attributes that were folded, given what each of them
became. -/
structure Census (before after : List (List Attribute)) (stats : Stats) : Prop where
  elementsVisited : stats.elementsVisited = before.length
  elementsChanged : stats.elementsChanged = (before.zip after).countP fun pair => pair.1 ≠ pair.2
  bindingsRewritten :
    stats.bindingsRewritten = before.flatten.countP fun a => a.name ∈ Fold.boundNames
  /-- Each directive stands where it occurs first. -/
  keys : stats.directives.keys = (directiveNames before.flatten).eraseDups
  counts : ∀ name, stats.directives.get? name =
    if name ∈ directiveNames before.flatten then
      some ((directiveNames before.flatten).count name)
    else none
  directivesRewritten : stats.directivesRewritten = stats.directives.values.sum

namespace Node

/-! ### Counting over a walk -/

/-- The counters after one more list of attributes. -/
theorem countFold_eq_counted (stats : Stats) (as : List Attribute) :
    countFold stats as =
      { elementsVisited := stats.elementsVisited + 1
        directivesRewritten := stats.directivesRewritten + (directiveNames as).length
        bindingsRewritten := stats.bindingsRewritten + bindingCount as
        elementsChanged := stats.elementsChanged + if Attribute.foldedList as = as then 0 else 1
        directives := countNames stats.directives (directiveNames as) } := by
  have hchanged := countFold_elementsChanged stats as
  simp only [countFold, foldNode, Fold.attributes_snd_eq] at hchanged ⊢
  split
  · next h =>
      rw [if_pos h] at hchanged
      rw [← hchanged]
      rfl
  · next h =>
      rw [if_neg h] at hchanged
      rw [← hchanged]
      rfl

/-- The counters after all lists of attributes. -/
theorem foldl_countFold (lists : List (List Attribute)) (stats : Stats) :
    lists.foldl countFold stats =
      { elementsVisited := stats.elementsVisited + lists.length
        directivesRewritten := stats.directivesRewritten + (directiveNames lists.flatten).length
        bindingsRewritten := stats.bindingsRewritten + bindingCount lists.flatten
        elementsChanged :=
          stats.elementsChanged + lists.countP fun as => Attribute.foldedList as ≠ as
        directives := countNames stats.directives (directiveNames lists.flatten) } := by
  induction lists generalizing stats with
  | nil => rfl
  | cons as lists ih =>
      have hchanged : (as :: lists).countP (fun as => Attribute.foldedList as ≠ as) =
          (if Attribute.foldedList as = as then 0 else 1) +
            lists.countP fun as => Attribute.foldedList as ≠ as := by
        rw [List.countP_cons, Nat.add_comm]
        by_cases h : Attribute.foldedList as = as <;> simp [h]
      rw [List.foldl_cons, ih, countFold_eq_counted, List.flatten_cons, directiveNames_append,
        bindingCount_append, countNames_append, List.length_append, List.length_cons, hchanged]
      simp only [Stats.mk.injEq, and_true]
      omega

/-- The walk counts the same whatever the counters stand at before. -/
theorem addsUp_foldl_countFold (lists : List (List Attribute)) (stats : Stats) :
    stats.AddsUp (lists.foldl countFold {}) (lists.foldl countFold stats) := by
  rw [foldl_countFold, foldl_countFold]
  exact
    { elementsVisited := by simp
      directivesRewritten := by simp
      bindingsRewritten := by simp
      elementsChanged := by simp
      counts := counts_countNames stats.directives _
      keys := keys_countNames_eq stats.directives _ }

/-! ### The census of a tree -/

theorem countP_zip_map {α : Type} [DecidableEq α] (f : α → α) (l : List α) :
    ((l.zip (l.map f)).countP fun pair => pair.1 ≠ pair.2) = l.countP fun a => f a ≠ a := by
  induction l with
  | nil => rfl
  | cons a l ih =>
      rw [List.map_cons, List.zip_cons_cons, List.countP_cons, List.countP_cons, ih]
      simp only [ne_comm]

theorem census_countFold (lists : List (List Attribute)) :
    Census lists (lists.map Attribute.foldedList) (lists.foldl countFold {}) := by
  rw [foldl_countFold]
  have hget : ∀ name, (∅ : FirstSeen String Nat).get? name = none := fun _ => rfl
  exact
    { elementsVisited := Nat.zero_add _
      elementsChanged := by simp only [countP_zip_map, Nat.zero_add]
      bindingsRewritten := Nat.zero_add _
      keys := keys_countNames ∅ _
      counts := fun name => by simp [get?_countNames, hget]
      directivesRewritten := (sum_countNames ∅ _).symm }

/-- The counters of a walk are the census of the nodes that it folds, taken before and after. A
fold or a walk that starts with other counters changes the same and adds the same amounts. -/
theorem census_rewrite (root : Node) :
    Census root.visited root.rewrite.1.visited root.rewrite.2 ∧
      (∀ stats, (root.rewriteFrom stats).1 = root.rewrite.1 ∧
        stats.AddsUp root.rewrite.2 (root.rewriteFrom stats).2) ∧
      ∀ as stats, (Fold.attributes as stats).1 = (Fold.attributes as {}).1 ∧
        stats.AddsUp (Fold.attributes as {}).2 (Fold.attributes as stats).2 := by
  rw [rewrite_eq]
  refine ⟨?_, fun stats => ?_, fun as stats => ?_⟩
  · rw [visited_folded]
    exact census_countFold root.visited
  · rw [rewriteFrom_eq]
    exact ⟨rfl, addsUp_foldl_countFold root.visited stats⟩
  · exact ⟨Fold.attributes_fst_eq as stats {}, Fold.addsUp_attributes as stats⟩

end Node

end FlexFold.Markup
