import FlexFold.Proofs.Directive
import FlexFold.Proofs.Fold.NormalForm

/-!
A fold in one go. The fold reads and prints the value of the class attribute at every directive; it
comes to the same as reading the value once, adding what all directives contribute and printing
the outcome once.
-/

namespace FlexFold.Fold

open Markup (Attribute)

/-! ### The fold in one go -/

/-- A binding under its new name. Any other attribute is left as it is. -/
def renamed (a : Attribute) : Attribute :=
  if a.name = "[fxFlex]" then { a with name := "[class.flex]" }
  else if a.name = "[fxHide]" then { a with name := "[class.hidden]" }
  else if a.name = "[fxShow]" then
    { a with
      name := "[class.hidden]"
      value := a.value.map fun text => String.ofList ('!' :: text.toList.filter (· ≠ '\n')) }
  else a

/-- What the directives contribute, in order. -/
def effects (as : List Attribute) : List Effect :=
  (as.filter fun a => a.name ∈ plainNames).map fun a => (Directive.ofAttribute a).effect

/-- The words of a text, then all utilities, each at its first occurrence. -/
def gathered (text : String) (es : List Effect) : List String :=
  (Text.words text ++ es.flatMap Effect.utilities).eraseDups

/-- The tokens after the changes that wait. -/
def settled (text : String) (es : List Effect) : List String :=
  (es.flatMap Effect.deferred).foldl Deferred.on (gathered text es)

/-- The first class attribute. If any directive contributes something, then it has all tokens for
its value, and one is made if there is none. -/
def wholeClass (as : List Attribute) : Option Attribute :=
  let found := as.find? Attribute.isClass
  if (effects as).all Effect.isEmpty then found
  else
    let a := found.getD .emptyClass
    some { a with value := some (Text.spaced (settled a.text (effects as))) }

/-- The attributes that stay, then the class attribute unless it is blank. -/
def oneShot (as : List Attribute) : List Attribute :=
  ((as.filter fun a => a.name ≠ "class" ∧ a.name ∉ plainNames).map renamed) ++
    ((wholeClass as).filter fun a => !Text.isBlankText a.text).toList

/-! ### The attributes that stay -/

theorem renamed?_getD (a : Attribute) : (renamed? a).getD a = renamed a := by
  by_cases hbound : a.name ∈ boundNames
  · rw [renamed?_eq]
    simp only [boundNames, List.mem_cons, List.not_mem_nil, or_false] at hbound
    rcases hbound with h | h | h <;> rw [renamed, h] <;> rfl
  · have hnone : renamed? a = none := by
      simpa using mt (isSome_renamed?_iff a).mp hbound
    simp only [boundNames, List.mem_cons, List.not_mem_nil, or_false, not_or] at hbound
    rw [hnone, Option.getD_none, renamed, if_neg hbound.1, if_neg hbound.2.1, if_neg hbound.2.2]

theorem remnant?_eq (a : Attribute) :
    remnant? a = if a.name ∈ plainNames then none else some (renamed a) := by
  simp only [remnant?, renamed?_getD, isConsumed_iff]

theorem isClass_eq (a : Attribute) : a.isClass = decide (a.name = "class") := rfl

theorem rest_eq (as : List Attribute) :
    rest as = (as.filter fun a => a.name ≠ "class" ∧ a.name ∉ plainNames).map renamed := by
  rw [rest, List.filterMap_filter]
  induction as with
  | nil => rfl
  | cons a as ih =>
      rw [List.filterMap_cons, ih]
      by_cases hclass : a.name = "class"
      · simp [isClass_eq, hclass]
      · by_cases hplain : a.name ∈ plainNames <;>
          simp [isClass_eq, remnant?_eq, hclass, hplain]

/-! ### The class attribute -/

theorem text_setValue (a : Attribute) (text : String) :
    Attribute.text { a with value := some text } = text := rfl

theorem nodup_gathered (text : String) (es : List Effect) : (gathered text es).Nodup :=
  nodup_eraseDups _

/-- Printing what was gathered and taking it apart again loses nothing. -/
theorem words_spaced_gathered (text : String) {es : List Effect} (hes : ∀ e ∈ es, e.IsClean) :
    Text.words (Text.spaced (gathered text es)) = gathered text es := by
  apply Text.words_spaced
  intro w hw
  rw [gathered, List.mem_eraseDups, List.mem_append, List.mem_flatMap] at hw
  rcases hw with hw | ⟨e, he, hw⟩
  · exact Text.isWord_of_mem_words hw
  · exact (hes e he).utilities w hw

theorem utilities_of_all_isEmpty {es : List Effect} (h : es.all Effect.isEmpty) :
    es.flatMap Effect.utilities = [] :=
  List.flatMap_eq_nil_iff.mpr fun e he =>
    ((Effect.isEmpty_iff e).mp (List.all_eq_true.mp h e he)).1

theorem deferred_of_all_isEmpty {es : List Effect} (h : es.all Effect.isEmpty) :
    es.flatMap Effect.deferred = [] :=
  List.flatMap_eq_nil_iff.mpr fun e he =>
    ((Effect.isEmpty_iff e).mp (List.all_eq_true.mp h e he)).2

theorem gathered_spaced (text : String) {e : Effect} (he : e.IsClean) (es : List Effect) :
    gathered (Text.spaced (gathered text [e])) es = gathered text (e :: es) := by
  rw [gathered, words_spaced_gathered text (by simpa using he), gathered, gathered,
    eraseDups_eraseDups_append, List.append_assoc, ← List.flatMap_append, List.singleton_append]

theorem merge_eq (a : Attribute) {e : Effect} (he : e.IsClean) :
    merge a e =
      if e.isEmpty then a
      else { a with value := some (Text.spaced (gathered a.text [e])) } := by
  rw [merge, ClassList.text, ClassList.tokens_extend _ he.utilities, ClassList.tokens_parse,
    eraseDups_eraseDups_append, gathered, List.flatMap_singleton]

/-- Merging one contribution after the other is merging them all at once. -/
theorem foldl_merge {es : List Effect} (hes : ∀ e ∈ es, e.IsClean) (a : Attribute) :
    es.foldl merge a =
      if es.all Effect.isEmpty then a
      else { a with value := some (Text.spaced (gathered a.text es)) } := by
  induction es generalizing a with
  | nil => rfl
  | cons e es ih =>
      have he : e.IsClean := hes e (by simp)
      rw [List.foldl_cons, ih fun e' he' => hes e' (by simp [he']), merge_eq a he, List.all_cons]
      by_cases hempty : e.isEmpty
      · have hutilities : gathered a.text (e :: es) = gathered a.text es := by
          simp [gathered, ((Effect.isEmpty_iff e).mp hempty).1]
        simp [hempty, hutilities]
      · by_cases hall : es.all Effect.isEmpty
        · have hutilities : gathered a.text (e :: es) = gathered a.text [e] := by
            simp [gathered, utilities_of_all_isEmpty hall]
          simp [hempty, hall, hutilities]
        · simp [hempty, hall, text_setValue, gathered_spaced a.text he]

/-- The contributions of the directives reach the class attribute in order. -/
theorem foldl_absorb (as : List Attribute) (slot : Option Attribute) :
    (as.foldl absorb slot).getD .emptyClass =
      (effects as).foldl merge (slot.getD .emptyClass) := by
  induction as generalizing slot with
  | nil => rfl
  | cons a as ih =>
      rw [List.foldl_cons, ih, absorb]
      simp only [isConsumed_iff]
      by_cases hplain : a.name ∈ plainNames <;> simp [effects, hplain]

theorem flatMap_deferred (as : List Attribute) :
    (as.flatMap fun a => (Directive.ofAttribute a).effect.deferred) =
      (effects as).flatMap Effect.deferred := by
  induction as with
  | nil => rfl
  | cons a as ih =>
      rw [List.flatMap_cons, ih]
      by_cases hplain : a.name ∈ plainNames
      · simp [effects, hplain]
      · have hnone := deferred_of_not_consumed (by simpa using mt (isConsumed_iff a).mp hplain)
        simp [effects, hplain, hnone]

/-- A class attribute is no directive. -/
theorem effects_filter (as : List Attribute) :
    effects (as.filter fun a => !a.isClass) = effects as := by
  have hclass : "class" ∉ plainNames := by decide
  rw [effects, effects, List.filter_filter]
  congr 2
  funext a
  by_cases h : a.name = "class" <;> simp [isClass_eq, h, hclass]

theorem isClean_of_mem_effects (as : List Attribute) : ∀ e ∈ effects as, e.IsClean := by
  intro e he
  obtain ⟨a, -, rfl⟩ := List.mem_map.mp he
  exact (Directive.ofAttribute a).isClean_effect

/-- The changes that wait see the tokens as they were gathered. -/
theorem settle_getD (state : State) :
    (settle state).getD .emptyClass =
      if state.backlog.pending = [] then state.classSlot.getD .emptyClass
      else
        { state.classSlot.getD .emptyClass with
          value := some (state.backlog.pending.foldl (fun list change => change.apply list)
            (ClassList.parse (state.classSlot.getD .emptyClass).text)).text } := by
  simp only [settle, Backlog.isEmpty, List.isEmpty_iff, Backlog.flush]
  split <;> rfl

theorem classOf_getD (as : List Attribute) :
    (classOf as).getD .emptyClass = (wholeClass as).getD .emptyClass := by
  have hclean := isClean_of_mem_effects as
  simp only [classOf, settle_getD, foldl_absorb, flatMap_deferred, effects_filter,
    foldl_merge hclean, wholeClass]
  by_cases hall : (effects as).all Effect.isEmpty
  · simp only [hall, deferred_of_all_isEmpty hall, if_true]
  · simp only [hall, if_false, Bool.false_eq_true, Option.getD_some]
    generalize (as.find? Attribute.isClass).getD .emptyClass = a
    have hread : (ClassList.parse (Text.spaced (gathered a.text (effects as)))).tokens =
        gathered a.text (effects as) := by
      rw [ClassList.tokens_parse, words_spaced_gathered a.text hclean,
        eraseDups_of_nodup (nodup_gathered _ _)]
    have happend : ∀ change ∈ (effects as).flatMap Effect.deferred, change.AppendsWord := by
      intro change hchange
      obtain ⟨e, he, hchange⟩ := List.mem_flatMap.mp hchange
      exact (hclean e he).deferred change hchange
    split
    · next hpending => simp only [settled, hpending, List.foldl_nil]
    · rw [text_setValue, ClassList.text, Deferred.tokens_foldl_apply happend, hread]
      rfl

/-- An empty class attribute is as good as none. -/
theorem filter_eq_of_getD_eq {x y : Option Attribute}
    (h : x.getD .emptyClass = y.getD .emptyClass) :
    (x.filter fun a => !Text.isBlankText a.text) =
      y.filter fun a => !Text.isBlankText a.text := by
  have hblank : Text.isBlankText Attribute.emptyClass.text := by decide
  have hgetD : ∀ z : Option Attribute, (z.filter fun a => !Text.isBlankText a.text) =
      (some (z.getD .emptyClass)).filter fun a => !Text.isBlankText a.text := by
    intro z
    cases z with
    | none => simp [Option.filter, hblank]
    | some a => rfl
  rw [hgetD x, hgetD y, h]

/-- A fold step by step and the fold in one go return the same attributes. -/
theorem attributes_eq_oneShot (as : List Attribute) (stats : Stats) :
    (attributes as stats).1 = oneShot as := by
  -- The two may disagree on whether there is an empty class attribute; neither lets it through.
  rw [attributes_fst, rest_eq, filter_eq_of_getD_eq (classOf_getD as), oneShot]

end FlexFold.Fold
