import FlexFold.Proofs.Deferred
import FlexFold.Proofs.Fold.OneShot

/-!
The class tokens that an element ends up with: its own, then the utilities of its directives, then
what was made to wait. The changes that wait have the last word over everything else on the
element, and the element's own tokens are kept in front and in order.
-/

namespace FlexFold.Fold

open Markup (Attribute)
open Deferred (IsColumn outcome)

/-! ### Tokens and contributions -/

/-- The words of the first class attribute. There are none if it is missing. -/
def classTokens (as : List Attribute) : List String :=
  Text.words ((as.find? Attribute.isClass).getD .emptyClass).text

/-- The utilities of all directives. -/
def utilities (as : List Attribute) : List String := (effects as).flatMap Effect.utilities

/-- The changes that all directives make wait. -/
def waiting (as : List Attribute) : List Deferred := (effects as).flatMap Effect.deferred

theorem mem_utilities_iff {as : List Attribute} {token : String} :
    token ∈ utilities as ↔
      ∃ a ∈ as, isConsumed a ∧ token ∈ (Directive.ofAttribute a).effect.utilities := by
  simp only [utilities, effects, List.mem_flatMap, List.mem_map, List.mem_filter,
    decide_eq_true_eq, isConsumed_iff]
  constructor
  · rintro ⟨_, ⟨a, ⟨ha, hplain⟩, rfl⟩, htoken⟩
    exact ⟨a, ha, hplain, htoken⟩
  · rintro ⟨a, ha, hplain, htoken⟩
    exact ⟨_, ⟨a, ⟨ha, hplain⟩, rfl⟩, htoken⟩

theorem mem_waiting_iff {as : List Attribute} {change : Deferred} :
    change ∈ waiting as ↔ ∃ a ∈ as, change ∈ (Directive.ofAttribute a).effect.deferred := by
  rw [waiting, ← flatMap_deferred, List.mem_flatMap]

theorem inline_mem_waiting_iff {as : List Attribute} :
    .inline ∈ waiting as ↔ ∃ a ∈ as, IsInlineLayout a := by
  simp [mem_waiting_iff, deferred_ofAttribute, Deferred.inline, Deferred.stretch]

theorem stretch_mem_waiting_iff {as : List Attribute} :
    .stretch ∈ waiting as ↔ ∃ a ∈ as, IsStretched a := by
  simp [mem_waiting_iff, deferred_ofAttribute, Deferred.inline, Deferred.stretch]

theorem eq_of_mem_waiting {as : List Attribute} :
    ∀ change ∈ waiting as, change = .inline ∨ change = .stretch := by
  intro change h
  obtain ⟨a, -, h⟩ := mem_waiting_iff.mp h
  exact eq_of_mem_deferred h

/-! ### The tokens of a folded element -/

theorem classTokens_append {front : List Attribute} (hfront : ∀ a ∈ front, ¬ a.isClass)
    {c : Option Attribute} (hc : ∀ a ∈ c, a.isClass) :
    classTokens (front ++ (c.filter fun a => !Text.isBlankText a.text).toList) =
      Text.words (c.getD .emptyClass).text := by
  have hfind : front.find? Attribute.isClass = none := by simpa using hfront
  rw [classTokens, List.find?_append, hfind, Option.none_or]
  cases c with
  | none => rfl
  | some a =>
      have ha : a.isClass := hc a rfl
      by_cases hblank : Text.isBlankText a.text
      · have hwords : Text.words a.text = [] := (Text.words_eq_nil_iff _).mpr hblank
        have hempty : Text.words Attribute.emptyClass.text = [] := by decide
        simp [Option.filter, hblank, hwords, hempty]
      · simp [Option.filter, hblank, ha]

theorem classTokens_attributes (as : List Attribute) (stats : Stats) :
    classTokens (attributes as stats).1 =
      Text.words ((wholeClass as).getD .emptyClass).text := by
  rw [attributes_fst, classTokens_append (fun a ha => (mem_rest ha).2.2)
    (fun c hc => classOf_isClass hc), classOf_getD]

/-- The outcome of some contributions is made of words, so it is still there after it was
printed. -/
theorem words_spaced_outcome (changes : List Deferred) {tokens : List String}
    (h : ∀ w ∈ tokens, Text.IsWord w) :
    Text.words (Text.spaced (outcome changes tokens)) = outcome changes tokens :=
  Text.words_spaced (Deferred.isWord_of_mem_outcome h)

theorem isWord_of_mem_utilities {as : List Attribute} :
    ∀ w ∈ utilities as, Text.IsWord w := by
  intro w hw
  obtain ⟨e, he, hw⟩ := List.mem_flatMap.mp hw
  exact (isClean_of_mem_effects as e he).utilities w hw

/-- If any directive contributes something, then the tokens are the outcome of everything that is
contributed. -/
theorem classTokens_attributes_eq_outcome {as : List Attribute}
    (h : ¬ (effects as).all Effect.isEmpty) (stats : Stats) :
    classTokens (attributes as stats).1 =
      outcome (waiting as) (classTokens as ++ utilities as) := by
  have hsettled : settled ((as.find? Attribute.isClass).getD .emptyClass).text (effects as) =
      outcome (waiting as) (classTokens as ++ utilities as) :=
    calc settled _ (effects as)
        = (waiting as).foldl Deferred.on (classTokens as ++ utilities as).eraseDups := rfl
      _ = outcome (waiting as) (classTokens as ++ utilities as).eraseDups :=
        Deferred.foldl_on eq_of_mem_waiting (nodup_eraseDups _)
      _ = outcome (waiting as) (classTokens as ++ utilities as) := Deferred.outcome_eraseDups _ _
  rw [classTokens_attributes, wholeClass, if_neg h, Option.getD_some, text_setValue, hsettled]
  apply words_spaced_outcome
  intro w hw
  rcases List.mem_append.mp hw with hw | hw
  · exact Text.isWord_of_mem_words hw
  · exact isWord_of_mem_utilities w hw

/-- Apart from order and repetition, the tokens are an outcome even if no directive contributes
anything. -/
theorem mem_classTokens_attributes_iff (as : List Attribute) (stats : Stats) (token : String) :
    token ∈ classTokens (attributes as stats).1 ↔
      token ∈ outcome (waiting as) (classTokens as ++ utilities as) := by
  by_cases h : (effects as).all Effect.isEmpty
  · have hwaiting : waiting as = [] := deferred_of_all_isEmpty h
    have hutilities : utilities as = [] := utilities_of_all_isEmpty h
    rw [classTokens_attributes, wholeClass, if_pos h, hwaiting, hutilities, List.append_nil,
      ← Deferred.outcome_eraseDups, Deferred.outcome_nil (nodup_eraseDups _), List.mem_eraseDups]
    rfl
  · rw [classTokens_attributes_eq_outcome h]

/-- The tokens that the changes bring are no utilities. -/
theorem notMem_utilities (as : List Attribute) {token : String}
    (h : token ∈ ["inline-flex", "max-h-full", "max-w-full"]) : token ∉ utilities as := by
  rw [mem_utilities_iff]
  rintro ⟨a, -, -, hmem⟩
  exact (Directive.ofAttribute a).utilities_effect token hmem h

/-! ### What was made to wait -/

/-- The tokens before and after a stretched axis. The limit goes with the direction that is there
in the end. The other limit can only have been there before. -/
structure IsLimited (before after : List String) : Prop where
  column : IsColumn after →
    "max-h-full" ∈ after ∧ ("max-w-full" ∈ after → "max-w-full" ∈ before)
  row : ¬ IsColumn after →
    "max-w-full" ∈ after ∧ ("max-h-full" ∈ after → "max-h-full" ∈ before)

/-- The tokens of an element after an inline layout. -/
structure IsInlined (as : List Attribute) (after : List String) : Prop where
  flex : "flex" ∉ after
  inlineFlex : "inline-flex" ∈ after ↔
    "flex" ∈ classTokens as ∨ "inline-flex" ∈ classTokens as ∨
      ∃ a ∈ as, isConsumed a ∧ "flex" ∈ (Directive.ofAttribute a).effect.utilities

theorem isLimited_attributes {as : List Attribute} (h : ∃ a ∈ as, IsStretched a)
    (stats : Stats) : IsLimited (classTokens as) (classTokens (attributes as stats).1) := by
  have hstretch : .stretch ∈ waiting as := stretch_mem_waiting_iff.mpr h
  have hcolumn : IsColumn (classTokens (attributes as stats).1) ↔
      IsColumn (classTokens as ++ utilities as) := by
    rw [IsColumn, mem_classTokens_attributes_iff, mem_classTokens_attributes_iff]
    exact Deferred.isColumn_outcome _ _
  have hmem : ∀ token ∈ ["max-h-full", "max-w-full"],
      (token ∈ classTokens (attributes as stats).1 ↔
        token ∈ classTokens as ∨ token = Deferred.limit (classTokens as ++ utilities as)) := by
    intro token htoken
    have hflex : token ≠ "flex" := by rintro rfl; exact absurd htoken (by decide)
    have hinline : token ≠ "inline-flex" := by rintro rfl; exact absurd htoken (by decide)
    have hutility : token ∉ utilities as := notMem_utilities as (List.mem_cons_of_mem _ htoken)
    simp only [mem_classTokens_attributes_iff, Deferred.mem_outcome_iff_of_ne hflex hinline,
      List.mem_append, hutility, hstretch, or_false, true_and]
  constructor
  · intro hafter
    have hlimit : Deferred.limit (classTokens as ++ utilities as) = "max-h-full" :=
      if_pos (hcolumn.mp hafter)
    rw [hmem _ (by decide), hmem _ (by decide), hlimit]
    simp
  · intro hafter
    have hlimit : Deferred.limit (classTokens as ++ utilities as) = "max-w-full" :=
      if_neg (mt hcolumn.mpr hafter)
    rw [hmem _ (by decide), hmem _ (by decide), hlimit]
    simp

theorem isInlined_attributes {as : List Attribute} (h : ∃ a ∈ as, IsInlineLayout a)
    (stats : Stats) : IsInlined as (classTokens (attributes as stats).1) := by
  have hinline : .inline ∈ waiting as := inline_mem_waiting_iff.mpr h
  constructor
  · rw [mem_classTokens_attributes_iff]
    exact Deferred.flex_notMem_outcome hinline _
  · have hutility : "inline-flex" ∉ utilities as := notMem_utilities as (by decide)
    rw [mem_classTokens_attributes_iff, Deferred.inlineFlex_mem_outcome_iff hinline,
      List.mem_append, List.mem_append, ← mem_utilities_iff]
    simp only [hutility, or_false]
    exact or_right_comm.trans or_assoc

/-- The changes that wait are decided by the tokens that the element has in the end, wherever the
directives stand that make them wait and however often they occur. -/
theorem isLimited_and_isInlined (as : List Attribute) (stats : Stats) :
    ((∃ a ∈ as, IsStretched a) →
        IsLimited (classTokens as) (classTokens (attributes as stats).1)) ∧
      ((∃ a ∈ as, IsInlineLayout a) →
        IsInlined as (classTokens (attributes as stats).1)) :=
  ⟨fun h => isLimited_attributes h stats, fun h => isInlined_attributes h stats⟩

-- The stretched axis comes first, yet it meets the column; `flex` is respelled where it stands.
example :
    (attributes [.ofValue "fxLayoutAlign" "start stretch", .ofValue "fxLayout" "column inline",
      .ofValue "class" "card flex"] {}).1 =
      [.ofValue "class" "card inline-flex justify-start flex-col max-h-full"] := by
  decide +kernel

/-- A column that is named after the stretched axis, on an element that is `inline-flex` already. -/
def stretchedColumn : List Attribute :=
  [.ofValue "fxLayoutAlign" "start stretch", .ofValue "class" "inline-flex max-w-full",
    .ofValue "fxLayout" "column inline"]

theorem isLimited_and_isInlined_stretchedColumn :
    IsLimited (classTokens stretchedColumn) (classTokens (attributes stretchedColumn {}).1) ∧
      IsInlined stretchedColumn (classTokens (attributes stretchedColumn {}).1) :=
  ⟨(isLimited_and_isInlined stretchedColumn {}).1
      ⟨.ofValue "fxLayoutAlign" "start stretch", by decide, by decide⟩,
    (isLimited_and_isInlined stretchedColumn {}).2
      ⟨.ofValue "fxLayout" "column inline", by decide, by decide⟩⟩

/-! ### The tokens in front -/

/-- A token after the inline layouts of an element. -/
def respelled (as : List Attribute) (token : String) : String :=
  if (∃ a ∈ as, IsInlineLayout a) ∧ token = "flex" then "inline-flex" else token

/-- A token that the directives of an element bring. -/
def IsAdded (as : List Attribute) (token : String) : Prop :=
  (∃ a ∈ as, isConsumed a ∧
    ∃ utility ∈ (Directive.ofAttribute a).effect.utilities, token = respelled as utility) ∨
    (token = "max-h-full" ∨ token = "max-w-full") ∧ ∃ a ∈ as, IsStretched a

/-- The tokens of an element behind which others were added. -/
structure IsExtended (as : List Attribute) (after : List String) : Prop where
  nodup : after.Nodup
  front : ∃ further,
    after = ((classTokens as).eraseDups.map (respelled as)).eraseDups ++ further ∧
      ∀ token ∈ further, IsAdded as token

theorem respelled_eq (as : List Attribute) : respelled as = Deferred.respell (waiting as) := by
  funext token
  simp only [respelled, Deferred.respell, inline_mem_waiting_iff]

theorem all_isEmpty_effects_iff (as : List Attribute) :
    (effects as).all Effect.isEmpty ↔
      ∀ a ∈ as, isConsumed a → (Directive.ofAttribute a).effect.isEmpty := by
  simp [effects, isConsumed_iff, Decidable.imp_iff_not_or]

/-- The tokens of an element stay in front and in order, and no token comes from nowhere. -/
theorem isExtended_attributes {as : List Attribute}
    (h : ∃ a ∈ as, isConsumed a ∧ ¬ (Directive.ofAttribute a).effect.isEmpty) (stats : Stats) :
    IsExtended as (classTokens (attributes as stats).1) := by
  have hsome : ¬ (effects as).all Effect.isEmpty := by
    rw [all_isEmpty_effects_iff]
    obtain ⟨a, ha, hconsumed, hempty⟩ := h
    exact fun hall => hempty (hall a ha hconsumed)
  rw [classTokens_attributes_eq_outcome hsome]
  refine ⟨Deferred.nodup_outcome _ _, ?_⟩
  obtain ⟨further, heq, hfurther⟩ :=
    exists_eraseDups_append ((classTokens as).map (respelled as))
      ((utilities as).map (respelled as) ++
        Deferred.limits (waiting as) (classTokens as ++ utilities as))
  have hfront : ((classTokens as).eraseDups.map (respelled as)).eraseDups =
      ((classTokens as).map (respelled as)).eraseDups := by
    simpa using eraseDups_map_eraseDups_append (respelled as) (classTokens as) []
  refine ⟨further, ?_, fun token htoken => ?_⟩
  · rw [outcome, ← respelled_eq, List.map_append, List.append_assoc, heq, hfront]
  · rcases List.mem_append.mp (hfurther token htoken) with hutility | hlimit
    · obtain ⟨utility, hmem, rfl⟩ := List.mem_map.mp hutility
      obtain ⟨a, ha, hconsumed, hmem⟩ := mem_utilities_iff.mp hmem
      exact .inl ⟨a, ha, hconsumed, utility, hmem, rfl⟩
    · obtain ⟨hstretch, rfl⟩ := Deferred.mem_limits_iff.mp hlimit
      exact .inr ⟨Deferred.limit_eq _, stretch_mem_waiting_iff.mp hstretch⟩

theorem isExtended_attributes_stretchedColumn :
    (∃ a ∈ stretchedColumn, isConsumed a ∧ ¬ (Directive.ofAttribute a).effect.isEmpty) ∧
      IsExtended stretchedColumn (classTokens (attributes stretchedColumn {}).1) := by
  have hsome : ∃ a ∈ stretchedColumn,
      isConsumed a ∧ ¬ (Directive.ofAttribute a).effect.isEmpty := by decide
  exact ⟨hsome, isExtended_attributes hsome {}⟩

end FlexFold.Fold
