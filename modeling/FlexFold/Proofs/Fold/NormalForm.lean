import FlexFold.Proofs.Fold.Equations

/-!
The lists of attributes that a fold returns, and that it leaves alone. They are described by names
and values only: no directive is left, and only the last attribute may be a class attribute.
-/

namespace FlexFold.Fold

open Markup (Attribute)

/-- The names of the directives that disappear. -/
def plainNames : List String :=
  ["fxFlex", "fxFlexFill", "fxFill", "fxHide", "fxShow", "fxFlexAlign", "fxLayout",
    "fxLayoutAlign"]

/-- The names of the bindings that are renamed. -/
def boundNames : List String := ["[fxFlex]", "[fxHide]", "[fxShow]"]

/-- No directive is left, and a class attribute stands at the end and is not blank. -/
structure IsFolded (as : List Attribute) : Prop where
  noPlain : ∀ a ∈ as, a.name ∉ plainNames
  noBound : ∀ a ∈ as, a.name ∉ boundNames
  /-- In particular there is at most one class attribute. -/
  classLast : ∀ a ∈ as.dropLast, ¬ a.isClass
  classText : ∀ a ∈ as, a.isClass → ¬ Text.isBlankText a.text

/-! ### Names of directives -/

theorem bracketed?_eq_some_iff (name inner : String) :
    Directive.bracketed? name = some inner ↔ name.toList = '[' :: (inner.toList ++ [']']) := by
  unfold Directive.bracketed?
  split
  · next rest h =>
      rw [h]
      constructor
      · intro he
        split at he
        · next hlast =>
            obtain ⟨front, rfl⟩ := List.getLast?_eq_some_iff.mp hlast
            simp only [List.dropLast_concat, Option.some.injEq] at he
            rw [← he, String.toList_ofList]
        · simp at he
      · intro he
        simp only [List.cons.injEq, true_and] at he
        subst he
        simp
  · next h =>
      constructor
      · simp
      · intro he
        exact (h _ he).elim

theorem isConsumed_iff (a : Attribute) : isConsumed a ↔ a.name ∈ plainNames := by
  constructor
  · intro h
    unfold isConsumed Directive.ofAttribute at h
    split at h
    · simp [Directive.isPlain] at h
    · unfold Directive.ofName at h
      split at h <;> simp_all [plainNames, Directive.isPlain]
  · intro h
    simp only [plainNames, List.mem_cons, List.not_mem_nil, or_false] at h
    rcases h with h | h | h | h | h | h | h | h <;>
      simp [isConsumed, Directive.ofAttribute, h, Directive.bracketed?, Directive.ofName,
        Directive.isPlain]

theorem ofName_ne_bound (name : String) (value : Option String) (binding : Binding) :
    Directive.ofName name value ≠ .bound binding := by
  unfold Directive.ofName
  split <;> simp

theorem renamed?_eq (a : Attribute) :
    renamed? a =
      (Directive.bracketed? a.name).bind fun inner => (Binding.ofText inner).rename? a := by
  unfold renamed? Directive.ofAttribute
  cases Directive.bracketed? a.name with
  | none =>
      simp only [Option.bind_none]
      split
      · next binding h => exact (ofName_ne_bound _ _ _ h).elim
      · rfl
  | some inner => rfl

theorem ofText_ne_other_iff (inner : String) :
    Binding.ofText inner ≠ .other ↔ inner ∈ ["fxFlex", "fxHide", "fxShow"] := by
  unfold Binding.ofText
  split <;> simp_all

theorem isSome_rename?_iff (b : Binding) (a : Attribute) :
    (b.rename? a).isSome ↔ b ≠ .other := by
  cases b <;> simp [Binding.rename?]

theorem isSome_renamed?_iff (a : Attribute) : (renamed? a).isSome ↔ a.name ∈ boundNames := by
  have hname : ∀ inner : String, Directive.bracketed? a.name = some inner ↔
      a.name = String.ofList ('[' :: (inner.toList ++ [']'])) := by
    intro inner
    rw [bracketed?_eq_some_iff, ← String.toList_inj, String.toList_ofList]
  rw [renamed?_eq]
  constructor
  · intro h
    cases hb : Directive.bracketed? a.name with
    | none => simp [hb] at h
    | some inner =>
        rw [hb, Option.bind_some, isSome_rename?_iff, ofText_ne_other_iff] at h
        rw [(hname inner).mp hb]
        simp only [List.mem_cons, List.not_mem_nil, or_false] at h
        rcases h with rfl | rfl | rfl <;> decide
  · intro h
    simp only [boundNames, List.mem_cons, List.not_mem_nil, or_false] at h
    rcases h with h | h | h <;> rw [h] <;> rfl

/-! ### What a fold returns -/

/-- A renamed binding is no directive and no class attribute any more. -/
theorem name_of_renamed? {a b : Attribute} (h : renamed? a = some b) :
    b.name = "[class.flex]" ∨ b.name = "[class.hidden]" := by
  rw [renamed?_eq] at h
  obtain ⟨inner, -, h⟩ := Option.bind_eq_some_iff.mp h
  cases hb : Binding.ofText inner <;> rw [hb] at h <;>
    simp only [Binding.rename?, Option.some.injEq, reduceCtorEq] at h <;> subst h <;> simp

/-- Nothing that an attribute leaves in its place needs another fold. -/
theorem name_of_remnant? {a b : Attribute} (hclass : ¬ a.isClass) (h : remnant? a = some b) :
    b.name ∉ plainNames ∧ b.name ∉ boundNames ∧ ¬ b.isClass := by
  unfold remnant? at h
  split at h
  · simp at h
  · next hconsumed =>
      simp only [Option.some.injEq] at h
      cases hr : renamed? a with
      | none =>
          rw [hr, Option.getD_none] at h
          subst h
          refine ⟨?_, ?_, hclass⟩
          · rwa [← isConsumed_iff]
          · rw [← isSome_renamed?_iff, hr]
            simp
      | some c =>
          rw [hr, Option.getD_some] at h
          subst h
          have hname := name_of_renamed? hr
          rcases hname with hname | hname <;>
            rw [Attribute.isClass, hname] <;> decide

theorem mem_rest {as : List Attribute} {b : Attribute} (h : b ∈ rest as) :
    b.name ∉ plainNames ∧ b.name ∉ boundNames ∧ ¬ b.isClass := by
  obtain ⟨a, ha, hb⟩ := List.mem_filterMap.mp h
  have hclass : ¬ a.isClass := by simpa using (List.mem_filter.mp ha).2
  exact name_of_remnant? hclass hb

/-- Attributes that need no fold, with a class attribute behind them that is not blank. -/
theorem isFolded_append {as : List Attribute} {c : Option Attribute}
    (has : ∀ a ∈ as, a.name ∉ plainNames ∧ a.name ∉ boundNames ∧ ¬ a.isClass)
    (hc : ∀ a ∈ c, a.isClass ∧ ¬ Text.isBlankText a.text) : IsFolded (as ++ c.toList) := by
  cases c with
  | none =>
      simp only [Option.toList_none, List.append_nil]
      exact
        { noPlain := fun a ha => (has a ha).1
          noBound := fun a ha => (has a ha).2.1
          classLast := fun a ha => (has a (List.dropLast_subset as ha)).2.2
          classText := fun a ha hclass => ((has a ha).2.2 hclass).elim }
  | some c =>
      obtain ⟨hclass, htext⟩ := hc c rfl
      have hname : c.name = "class" := by
        simpa [Attribute.isClass, Markup.classAttribute] using hclass
      simp only [Option.toList_some]
      refine ⟨?_, ?_, ?_, ?_⟩
      · intro a ha
        rcases List.mem_append.mp ha with ha | ha
        · exact (has a ha).1
        · rw [List.mem_singleton.mp ha, hname]
          decide
      · intro a ha
        rcases List.mem_append.mp ha with ha | ha
        · exact (has a ha).2.1
        · rw [List.mem_singleton.mp ha, hname]
          decide
      · intro a ha
        rw [List.dropLast_concat] at ha
        exact (has a ha).2.2
      · intro a ha haclass
        rcases List.mem_append.mp ha with ha | ha
        · exact ((has a ha).2.2 haclass).elim
        · rwa [List.mem_singleton.mp ha]

theorem isFolded_attributes (as : List Attribute) (stats : Stats) :
    IsFolded (attributes as stats).1 := by
  rw [attributes_fst]
  apply isFolded_append
  · intro a ha
    exact mem_rest ha
  · intro c hc
    obtain ⟨hc, htext⟩ := Option.mem_filter_iff.mp hc
    exact ⟨classOf_isClass hc, by simpa using htext⟩

/-! ### What a fold leaves alone -/

/-- An attribute that no step changes or counts. -/
structure IsPassive (a : Attribute) : Prop where
  isConsumed : isConsumed a = false
  renamed? : renamed? a = none

theorem IsFolded.isPassive {as : List Attribute} (h : IsFolded as) :
    ∀ a ∈ as, IsPassive a := by
  intro a ha
  constructor
  · simpa using mt (isConsumed_iff a).mp (h.noPlain a ha)
  · simpa using mt (isSome_renamed?_iff a).mp (h.noBound a ha)

theorem foldl_eq_self {α β : Type} {f : β → α → β} {b : β} {l : List α}
    (h : ∀ a ∈ l, f b a = b) : l.foldl f b = b := by
  induction l with
  | nil => rfl
  | cons a l ih =>
      rw [List.foldl_cons, h a (by simp)]
      exact ih fun a' ha' => h a' (by simp [ha'])

theorem filterMap_remnant?_eq_self {as : List Attribute} (h : ∀ a ∈ as, IsPassive a) :
    as.filterMap remnant? = as := by
  induction as with
  | nil => rfl
  | cons a as ih =>
      have ha : remnant? a = some a := by
        simp [remnant?, (h a (by simp)).isConsumed, (h a (by simp)).renamed?]
      rw [List.filterMap_cons_some ha, ih fun a' ha' => h a' (by simp [ha'])]

theorem classOf_of_passive {as : List Attribute} (h : ∀ a ∈ as, IsPassive a) :
    classOf as = as.find? Attribute.isClass := by
  have hothers : ∀ a ∈ as.filter (fun a => !a.isClass), isConsumed a = false :=
    fun a ha => (h a (List.mem_filter.mp ha).1).isConsumed
  have hslot : (as.filter fun a => !a.isClass).foldl absorb (as.find? Attribute.isClass) =
      as.find? Attribute.isClass :=
    foldl_eq_self fun a ha => by simp [absorb, hothers a ha]
  have hpending : ((as.filter fun a => !a.isClass).flatMap fun a =>
      (Directive.ofAttribute a).effect.deferred) = [] := by
    rw [List.flatMap_eq_nil_iff]
    intro a ha
    exact deferred_of_not_consumed (hothers a ha)
  simp only [classOf, settle, hslot, hpending]
  rfl

/-- The two parts of a folded list. -/
theorem IsFolded.eq_append {as : List Attribute} (h : IsFolded as) :
    (as.filter fun a => !a.isClass) ++
      ((as.find? Attribute.isClass).filter fun a => !Text.isBlankText a.text).toList = as := by
  rcases List.eq_nil_or_concat as with rfl | ⟨front, last, rfl⟩
  · rfl
  · rw [List.concat_eq_append] at h ⊢
    have hfront : ∀ a ∈ front, a.isClass = false := by
      intro a ha
      have := h.classLast a (by rwa [List.dropLast_concat])
      simpa using this
    have hfilter : (front.filter fun a => !a.isClass) = front := by
      rw [List.filter_eq_self]
      intro a ha
      rw [hfront a ha, Bool.not_false]
    have hfind : front.find? Attribute.isClass = none := by
      rw [List.find?_eq_none]
      intro a ha
      rw [hfront a ha]
      simp
    rw [List.filter_append, hfilter, List.find?_append, hfind, Option.none_or]
    by_cases hlast : last.isClass
    · have htext := h.classText last (by simp) hlast
      simp [hlast, htext, Option.filter]
    · simp [hlast]

theorem attributes_of_isFolded {as : List Attribute} (h : IsFolded as) (stats : Stats) :
    attributes as stats = (as, stats) := by
  apply Prod.ext
  · rw [attributes_fst, classOf_of_passive h.isPassive, rest,
      filterMap_remnant?_eq_self fun a ha => h.isPassive a (List.mem_filter.mp ha).1]
    exact h.eq_append
  · rw [attributes_snd]
    apply foldl_eq_self
    intro a ha
    have hpassive := h.isPassive a (List.mem_filter.mp ha).1
    simp [tally, hpassive.isConsumed, hpassive.renamed?]

/-- A fold that changes nothing has nothing to do. -/
theorem isFolded_of_attributes_fst_eq {as : List Attribute} {stats : Stats}
    (h : (attributes as stats).1 = as) : IsFolded as :=
  h ▸ isFolded_attributes as stats

/-! ### The form of a list that is left alone -/

/-- There is no class attribute, or exactly one. It comes last and is not blank. -/
def HasTidyClass (as : List Attribute) : Prop :=
  (∀ a ∈ as, ¬ a.isClass) ∨
    ∃ front c, as = front ++ [c] ∧ (∀ a ∈ front, ¬ a.isClass) ∧ c.isClass ∧
      ¬ Text.isBlankText c.text

theorem IsFolded.hasTidyClass {as : List Attribute} (h : IsFolded as) : HasTidyClass as := by
  rcases List.eq_nil_or_concat as with rfl | ⟨front, c, rfl⟩
  · exact .inl fun a ha => (List.not_mem_nil ha).elim
  · rw [List.concat_eq_append] at h ⊢
    have hfront : ∀ a ∈ front, ¬ a.isClass := by simpa using h.classLast
    by_cases hc : c.isClass
    · exact .inr ⟨front, c, rfl, hfront, hc, h.classText c (by simp) hc⟩
    · refine .inl fun a ha => ?_
      rcases List.mem_append.mp ha with ha | ha
      · exact hfront a ha
      · rwa [List.mem_singleton.mp ha]

theorem isFolded_iff (as : List Attribute) :
    IsFolded as ↔
      (∀ a ∈ as, ¬ isConsumed a) ∧ (∀ a ∈ as, a.name ∉ boundNames) ∧ HasTidyClass as := by
  simp only [isConsumed_iff]
  constructor
  · exact fun h => ⟨h.noPlain, h.noBound, h.hasTidyClass⟩
  · rintro ⟨hplain, hbound, hclass | ⟨front, c, rfl, hfront, hc, htext⟩⟩
    · exact
        { noPlain := hplain
          noBound := hbound
          classLast := fun a ha => hclass a (List.dropLast_subset as ha)
          classText := fun a ha haclass => (hclass a ha haclass).elim }
    · refine ⟨hplain, hbound, by simpa using hfront, fun a ha haclass => ?_⟩
      rcases List.mem_append.mp ha with ha | ha
      · exact (hfront a ha haclass).elim
      · rwa [List.mem_singleton.mp ha]

/-- A fold leaves exactly those lists alone that have nothing to fold and a tidy class attribute,
and it returns nothing but such lists. -/
theorem attributes_eq_self_iff (as : List Attribute) (stats : Stats) :
    ((attributes as stats).1 = as ↔
        (∀ a ∈ as, ¬ isConsumed a) ∧ (∀ a ∈ as, a.name ∉ boundNames) ∧ HasTidyClass as) ∧
      (∀ a ∈ (attributes as stats).1, ¬ isConsumed a) ∧
      (∀ a ∈ (attributes as stats).1, a.name ∉ boundNames) ∧
      HasTidyClass (attributes as stats).1 := by
  rw [← isFolded_iff, ← isFolded_iff]
  refine ⟨⟨isFolded_of_attributes_fst_eq, fun h => ?_⟩, isFolded_attributes as stats⟩
  rw [attributes_of_isFolded h]

end FlexFold.Fold
