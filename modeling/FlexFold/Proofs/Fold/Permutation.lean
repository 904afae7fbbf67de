import FlexFold.Proofs.Fold.ClassTokens
import FlexFold.Proofs.Fold.Counting

/-!
The order of the attributes of an element. Directives may stand in any order: as long as the same
class attribute comes first, the outcome of a fold differs in its order only.
-/

namespace FlexFold.Fold

open Markup (Attribute)

variable {as bs : List Attribute}

/-- Two folds with the same outcome, apart from the order of things. -/
structure SameOutcome (x y : List Attribute × Stats) : Prop where
  others : (x.1.filter fun a => !a.isClass).Perm (y.1.filter fun a => !a.isClass)
  hasClass : x.1.any Attribute.isClass = y.1.any Attribute.isClass
  classTokens : ∀ token, token ∈ classTokens x.1 ↔ token ∈ classTokens y.1
  directivesRewritten : x.2.directivesRewritten = y.2.directivesRewritten
  bindingsRewritten : x.2.bindingsRewritten = y.2.bindingsRewritten
  directives : ∀ name, x.2.directives.get? name = y.2.directives.get? name

/-! ### Contributions in any order -/

theorem mem_utilities_perm (h : as.Perm bs) (token : String) :
    token ∈ utilities as ↔ token ∈ utilities bs := by
  simp only [mem_utilities_iff, h.mem_iff]

theorem mem_waiting_perm (h : as.Perm bs) (change : Deferred) :
    change ∈ waiting as ↔ change ∈ waiting bs := by
  simp only [mem_waiting_iff, h.mem_iff]

theorem directiveNames_perm (h : as.Perm bs) :
    (directiveNames as).Perm (directiveNames bs) :=
  (h.map Attribute.name).filter _

/-! ### The two parts of a folded list -/

theorem filter_attributes (as : List Attribute) (stats : Stats) :
    ((attributes as stats).1.filter fun a => !a.isClass) = rest as := by
  have hrest : ((rest as).filter fun a => !a.isClass) = rest as :=
    List.filter_eq_self.mpr fun a ha => by simpa using (mem_rest ha).2.2
  have hclass : (((classOf as).filter fun a => !Text.isBlankText a.text).toList.filter
      fun a => !a.isClass) = [] := by
    rw [List.filter_eq_nil_iff]
    intro a ha
    have hclass := classOf_isClass (Option.mem_filter_iff.mp (Option.mem_toList.mp ha)).1
    simpa using hclass
  rw [attributes_fst, List.filter_append, hrest, hclass, List.append_nil]

theorem rest_perm (h : as.Perm bs) : (rest as).Perm (rest bs) :=
  (h.filter _).filterMap _

/-- A class attribute is left if there is a token for it. -/
theorem any_isClass_attributes (as : List Attribute) (stats : Stats) :
    (attributes as stats).1.any Attribute.isClass ↔
      ∃ token, token ∈ classTokens (attributes as stats).1 := by
  have hfolded := isFolded_attributes as stats
  generalize (attributes as stats).1 = folded at hfolded
  rw [List.any_eq_true, ← List.find?_isSome, classTokens]
  cases hfind : folded.find? Attribute.isClass with
  | none => simpa using by decide
  | some c =>
      have htext : Text.words c.text ≠ [] := by
        rw [Ne, Text.words_eq_nil_iff]
        exact hfolded.classText c (List.mem_of_find?_eq_some hfind) (List.find?_some hfind)
      simpa using List.exists_mem_of_ne_nil _ htext

/-! ### Attributes in any order -/

/-- The outcome of what is contributed does not depend on the order of the contributions. -/
theorem mem_classTokens_perm (hperm : as.Perm bs)
    (hclass : as.find? Attribute.isClass = bs.find? Attribute.isClass) (stats : Stats)
    (token : String) :
    token ∈ classTokens (attributes as stats).1 ↔
      token ∈ classTokens (attributes bs stats).1 := by
  have htokens : classTokens as = classTokens bs := by rw [classTokens, hclass, classTokens]
  have hmem : ∀ t, t ∈ classTokens as ++ utilities as ↔ t ∈ classTokens bs ++ utilities bs := by
    intro t
    rw [List.mem_append, List.mem_append, htokens, mem_utilities_perm hperm]
  rw [mem_classTokens_attributes_iff, mem_classTokens_attributes_iff]
  exact Deferred.mem_outcome_congr (mem_waiting_perm hperm) hmem

/-- A fold of the same attributes in another order, with the same class attribute before all other
ones, has the same outcome. -/
theorem sameOutcome_attributes (hperm : as.Perm bs)
    (hclass : as.find? Attribute.isClass = bs.find? Attribute.isClass) (stats : Stats) :
    SameOutcome (attributes as stats) (attributes bs stats) where
  others := by
    rw [filter_attributes, filter_attributes]
    exact rest_perm hperm
  hasClass := by
    rw [Bool.eq_iff_iff, any_isClass_attributes, any_isClass_attributes]
    simp only [mem_classTokens_perm hperm hclass]
  classTokens := mem_classTokens_perm hperm hclass stats
  directivesRewritten := by
    simp only [attributes_snd_eq, (directiveNames_perm hperm).length_eq]
  bindingsRewritten := by
    simp only [attributes_snd_eq, bindingCount, hperm.countP_eq]
  directives := by
    intro name
    simp only [attributes_snd_eq, get?_countNames, (directiveNames_perm hperm).mem_iff,
      (directiveNames_perm hperm).count_eq]

theorem sameOutcome_attributes_reverse :
    stretchedColumn.Perm stretchedColumn.reverse ∧
      stretchedColumn.find? Attribute.isClass =
        stretchedColumn.reverse.find? Attribute.isClass ∧
      SameOutcome (attributes stretchedColumn {}) (attributes stretchedColumn.reverse {}) :=
  have hperm := (List.reverse_perm stretchedColumn).symm
  ⟨hperm, by decide, sameOutcome_attributes hperm (by decide) {}⟩

end FlexFold.Fold
