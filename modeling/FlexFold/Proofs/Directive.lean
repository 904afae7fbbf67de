import FlexFold.Directive.Basic
import FlexFold.Proofs.ClassList

/-!
What directives contribute. There are a few constant parts, and every contribution is empty, one
of these parts, or one part after another; so what all parts have in common holds of every
contribution. Two of the parts wait for the complete class list, and the attributes that register
them are described by name and value.
-/

namespace FlexFold

open Markup (Attribute)
open Text (IsWord)

/-! ### Contributions -/

instance : (change : Deferred) → Decidable change.AppendsWord
  | .rewriteToken _ _ => isTrue trivial
  | .appendByDirection _ ifColumn otherwise =>
      inferInstanceAs (Decidable (IsWord ifColumn ∧ IsWord otherwise))

namespace Effect

/-- A contribution of words. -/
structure IsClean (e : Effect) : Prop where
  utilities : ∀ w ∈ e.utilities, IsWord w
  deferred : ∀ change ∈ e.deferred, change.AppendsWord

instance (e : Effect) : Decidable e.IsClean :=
  decidable_of_iff ((∀ w ∈ e.utilities, IsWord w) ∧ ∀ change ∈ e.deferred, change.AppendsWord)
    ⟨fun h => ⟨h.1, h.2⟩, fun h => ⟨h.1, h.2⟩⟩

theorem IsClean.append {a b : Effect} (ha : a.IsClean) (hb : b.IsClean) : (a ++ b).IsClean where
  utilities := List.forall_mem_append.mpr ⟨ha.utilities, hb.utilities⟩
  deferred := List.forall_mem_append.mpr ⟨ha.deferred, hb.deferred⟩

theorem isEmpty_iff (e : Effect) : e.isEmpty ↔ e.utilities = [] ∧ e.deferred = [] := by
  simp [isEmpty]

theorem deferred_append (a b : Effect) : (a ++ b).deferred = a.deferred ++ b.deferred := rfl

end Effect

namespace Directive

/-! ### The parts of a contribution -/

/-- The contributions of single words, and of directives that have no words. -/
def parts : List Effect :=
  [.empty, .ofUtilities ["flex"], .ofUtilities fillUtilities, .ofUtilities ["hidden"]] ++
    [SelfAlign.start, .center, .finish, .baseline, .stretch].map SelfAlign.effect ++
    [Direction.row, .column, .rowReverse, .columnReverse].map Direction.effect ++
    [Modifier.wrap, .inline].map Modifier.effect ++
    [MainAxis.start, .center, .finish, .spaceAround, .spaceBetween, .spaceEvenly].map
      MainAxis.effect ++
    [CrossAxis.start, .center, .finish, .spaceAround, .spaceBetween, .baseline, .stretch].map
      CrossAxis.effect

section

variable {p : Effect → Prop} (hparts : ∀ e ∈ parts, p e)

include hparts

theorem forall_effectOf {α : Type} {ofText? : String → Option α} {effect : α → Effect}
    (h : ∀ a, effect a ∈ parts) (word : String) : p (effectOf ofText? effect word) := by
  rw [effectOf]
  split
  · exact hparts _ (h _)
  · exact hparts _ (by decide)

variable (happend : ∀ {a b}, p a → p b → p (a ++ b))

include happend

theorem forall_layoutEffect (value : Option String) : p (layoutEffect value) := by
  rw [layoutEffect]
  split
  · exact hparts _ (by decide)
  · refine happend (forall_effectOf hparts (fun d => by cases d <;> decide) _) ?_
    split
    · exact hparts _ (by decide)
    · exact forall_effectOf hparts (fun m => by cases m <;> decide) _

theorem forall_layoutAlignEffect (value : Option String) : p (layoutAlignEffect value) := by
  rw [layoutAlignEffect]
  split
  · exact hparts _ (by decide)
  · exact happend (forall_effectOf hparts (fun x => by cases x <;> decide) _)
      (forall_effectOf hparts (fun x => by cases x <;> decide) _)

/-- What holds of every part holds of every contribution. -/
theorem forall_effect (d : Directive) : p d.effect := by
  cases d with
  | flex => exact hparts _ (by decide)
  | fill => exact hparts _ (by decide)
  | hide value => rw [effect]; split <;> exact hparts _ (by decide)
  | «show» value => rw [effect]; split <;> exact hparts _ (by decide)
  | selfAlign value =>
      cases value with
      | none => exact hparts _ (by decide)
      | some word => exact forall_effectOf hparts (fun x => by cases x <;> decide) word
  | layout value => exact forall_layoutEffect hparts happend value
  | layoutAlign value => exact forall_layoutAlignEffect hparts happend value
  | bound binding => exact hparts .empty (by decide)
  | unknown => exact hparts _ (by decide)

end

/-- Directives contribute nothing but words. -/
theorem isClean_effect (d : Directive) : d.effect.IsClean :=
  forall_effect (by decide +kernel) Effect.IsClean.append d

/-- What the changes that wait put into a list is no utility of any directive. -/
theorem utilities_effect (d : Directive) :
    ∀ w ∈ d.effect.utilities, w ∉ ["inline-flex", "max-h-full", "max-w-full"] :=
  forall_effect (p := fun e => ∀ w ∈ e.utilities, w ∉ ["inline-flex", "max-h-full", "max-w-full"])
    (by decide) (fun ha hb => List.forall_mem_append.mpr ⟨ha, hb⟩) d

/-! ### Changes that wait -/

theorem deferred_effectOf_eq_nil {α : Type} {ofText? : String → Option α} {effect : α → Effect}
    (h : ∀ a, (effect a).deferred = []) (word : String) :
    (effectOf ofText? effect word).deferred = [] := by
  rw [effectOf]
  split
  · exact h _
  · rfl

theorem ofText?_inline_iff (word : String) :
    Modifier.ofText? word = some .inline ↔ word = "inline" := by
  unfold Modifier.ofText?
  split <;> simp_all

theorem ofText?_stretch_iff (word : String) :
    CrossAxis.ofText? word = some .stretch ↔ word = "stretch" := by
  unfold CrossAxis.ofText?
  split <;> simp_all

theorem deferred_modifier (word : String) :
    (effectOf Modifier.ofText? Modifier.effect word).deferred =
      if word = "inline" then [.inline] else [] := by
  simp only [← ofText?_inline_iff, effectOf]
  cases Modifier.ofText? word with
  | none => rfl
  | some m => cases m <;> rfl

theorem deferred_crossAxis (word : String) :
    (effectOf CrossAxis.ofText? CrossAxis.effect word).deferred =
      if word = "stretch" then [.stretch] else [] := by
  simp only [← ofText?_stretch_iff, effectOf]
  cases CrossAxis.ofText? word with
  | none => rfl
  | some x => cases x <;> rfl

theorem deferred_layoutEffect (value : Option String) :
    (layoutEffect value).deferred =
      if (Text.words (value.getD ""))[1]? = some "inline" then [.inline] else [] := by
  have hgetD : (Text.words (value.getD "row"))[1]? = (Text.words (value.getD ""))[1]? := by
    cases value with
    | none => decide
    | some text => rfl
  have hdirection : ∀ word, (effectOf Direction.ofText? Direction.effect word).deferred = [] :=
    deferred_effectOf_eq_nil fun d => by cases d <;> rfl
  rw [← hgetD, layoutEffect]
  split
  · next h => simp [h, Effect.empty]
  · next direction rest h =>
      rw [h, Effect.deferred_append, hdirection, List.nil_append]
      cases rest with
      | nil => rfl
      | cons modifier rest => simp [deferred_modifier]

theorem deferred_layoutAlignEffect (value : Option String) :
    (layoutAlignEffect value).deferred =
      if Text.words (value.getD "") = ["stretch"] ∨
        (Text.words (value.getD ""))[1]? = some "stretch" then [.stretch] else [] := by
  have hmain : ∀ word, (effectOf MainAxis.ofText? MainAxis.effect word).deferred = [] :=
    deferred_effectOf_eq_nil fun x => by cases x <;> rfl
  rw [layoutAlignEffect]
  split
  · next h => simp [h, Effect.empty]
  · next main rest h =>
      rw [h, Effect.deferred_append, hmain, List.append_nil, deferred_crossAxis]
      cases rest with
      | nil => simp
      | cons cross rest => simp

/-- Every change that ever waits, by directive. -/
theorem deferred_effect (d : Directive) :
    d.effect.deferred =
      match d with
      | .layout value =>
          if (Text.words (value.getD ""))[1]? = some "inline" then [.inline] else []
      | .layoutAlign value =>
          if Text.words (value.getD "") = ["stretch"] ∨
            (Text.words (value.getD ""))[1]? = some "stretch" then [.stretch] else []
      | _ => [] := by
  cases d with
  | flex => rfl
  | fill => rfl
  | hide value => rw [effect]; split <;> rfl
  | «show» value => rw [effect]; split <;> rfl
  | selfAlign value =>
      cases value with
      | none => rfl
      | some word => exact deferred_effectOf_eq_nil (fun x => by cases x <;> rfl) word
  | layout value => exact deferred_layoutEffect value
  | layoutAlign value => exact deferred_layoutAlignEffect value
  | bound binding => rfl
  | unknown => rfl

/-! ### Attributes that make a change wait -/

theorem ofAttribute_layout_iff {a : Attribute} {value : Option String} :
    ofAttribute a = .layout value ↔ a.name = "fxLayout" ∧ a.value = value := by
  constructor
  · intro h
    unfold ofAttribute ofName at h
    split at h
    · cases h
    · split at h <;> simp_all
  · rintro ⟨hname, rfl⟩
    rw [ofAttribute, hname]
    rfl

theorem ofAttribute_layoutAlign_iff {a : Attribute} {value : Option String} :
    ofAttribute a = .layoutAlign value ↔ a.name = "fxLayoutAlign" ∧ a.value = value := by
  constructor
  · intro h
    unfold ofAttribute ofName at h
    split at h
    · cases h
    · split at h <;> simp_all
  · rintro ⟨hname, rfl⟩
    rw [ofAttribute, hname]
    rfl

end Directive

/-- An inline layout: the second word says so. -/
def IsInlineLayout (a : Attribute) : Prop :=
  a.name = "fxLayout" ∧ (Text.words a.text)[1]? = some "inline"

instance : DecidablePred IsInlineLayout := fun _ => inferInstanceAs (Decidable (_ ∧ _))

/-- An alignment with a stretched cross axis. The word for it is the second one, or the only
one. -/
def IsStretched (a : Attribute) : Prop :=
  a.name = "fxLayoutAlign" ∧
    (Text.words a.text = ["stretch"] ∨ (Text.words a.text)[1]? = some "stretch")

instance : DecidablePred IsStretched := fun _ => inferInstanceAs (Decidable (_ ∧ _))

/-- What an attribute makes wait. -/
theorem deferred_ofAttribute (a : Attribute) :
    (Directive.ofAttribute a).effect.deferred =
      (if IsInlineLayout a then [.inline] else []) ++
        if IsStretched a then [.stretch] else [] := by
  rw [Directive.deferred_effect]
  split
  · next value h =>
      obtain ⟨hname, rfl⟩ := Directive.ofAttribute_layout_iff.mp h
      simp [IsInlineLayout, IsStretched, hname, Attribute.text]
  · next value h =>
      obtain ⟨hname, rfl⟩ := Directive.ofAttribute_layoutAlign_iff.mp h
      simp [IsInlineLayout, IsStretched, hname, Attribute.text]
  · next hlayout halign =>
      have hinline : ¬ IsInlineLayout a := fun h =>
        hlayout a.value (Directive.ofAttribute_layout_iff.mpr ⟨h.1, rfl⟩)
      have hstretched : ¬ IsStretched a := fun h =>
        halign a.value (Directive.ofAttribute_layoutAlign_iff.mpr ⟨h.1, rfl⟩)
      simp [hinline, hstretched]

/-- Only two changes ever wait. -/
theorem eq_of_mem_deferred {a : Attribute} {change : Deferred}
    (h : change ∈ (Directive.ofAttribute a).effect.deferred) :
    change = .inline ∨ change = .stretch := by
  rw [deferred_ofAttribute, List.mem_append] at h
  rcases h with h | h
  · split at h
    · exact .inl (List.mem_singleton.mp h)
    · cases h
  · split at h
    · exact .inr (List.mem_singleton.mp h)
    · cases h

end FlexFold
