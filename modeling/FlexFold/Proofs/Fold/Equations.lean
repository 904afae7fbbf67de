import FlexFold.Fold

/-!
What one step of the fold does to each part of its state, and what a whole fold returns. The
attributes that a fold returns do not depend on the counters it starts with.
-/

namespace FlexFold.Fold

open Markup (Attribute)

/-! ### What becomes of one attribute -/

/-- Whether an attribute disappears into the class attribute. -/
def isConsumed (a : Attribute) : Bool := (Directive.ofAttribute a).isPlain

/-- What a binding is renamed to, if the attribute is one that is renamed. -/
def renamed? (a : Attribute) : Option Attribute :=
  match Directive.ofAttribute a with
  | .bound binding => binding.rename? a
  | _ => none

/-- What an attribute leaves in its place. -/
def remnant? (a : Attribute) : Option Attribute :=
  if isConsumed a then none else some ((renamed? a).getD a)

/-- Count one attribute. -/
def tally (stats : Stats) (a : Attribute) : Stats :=
  if isConsumed a then stats.countDirective a.name
  else if (renamed? a).isSome then stats.countBinding
  else stats

/-- What a consumed attribute does to the class attribute. -/
def absorb (slot : Option Attribute) (a : Attribute) : Option Attribute :=
  if isConsumed a then some (merge (slot.getD .emptyClass) (Directive.ofAttribute a).effect)
  else slot

/-! ### One step -/

theorem deferred_of_not_consumed {a : Attribute} (h : isConsumed a = false) :
    (Directive.ofAttribute a).effect.deferred = [] := by
  unfold isConsumed at h
  cases hd : Directive.ofAttribute a <;> simp_all [Directive.isPlain] <;> rfl

/-- Every part of a step in one equation. -/
theorem step_eq (state : State) (a : Attribute) :
    step state a =
      { classSlot := absorb state.classSlot a
        folded := (remnant? a).toList ++ state.folded
        backlog := state.backlog.extend (Directive.ofAttribute a).effect.deferred
        stats := tally state.stats a } := by
  have hextend : ∀ backlog : Backlog, backlog.extend [] = backlog := by
    intro backlog
    simp [Backlog.extend]
  cases h : Directive.ofAttribute a with
  | unknown =>
      simp [step, h, absorb, remnant?, tally, isConsumed, renamed?, Directive.isPlain,
        Directive.effect, Effect.empty, hextend]
  | bound binding =>
      cases hb : binding.rename? a <;>
        simp [step, h, hb, absorb, remnant?, tally, isConsumed, renamed?, Directive.isPlain,
          Directive.effect, Effect.empty, hextend]
  | _ =>
      simp [step, h, absorb, remnant?, tally, isConsumed, Directive.isPlain]

/-! ### A whole fold -/

/-- The state after some attributes, part by part. -/
theorem foldl_step (as : List Attribute) (state : State) :
    as.foldl step state =
      { classSlot := as.foldl absorb state.classSlot
        folded := (as.filterMap remnant?).reverse ++ state.folded
        backlog := state.backlog.extend
          (as.flatMap fun a => (Directive.ofAttribute a).effect.deferred)
        stats := as.foldl tally state.stats } := by
  induction as generalizing state with
  | nil => simp [Backlog.extend]
  | cons a as ih =>
      rw [List.foldl_cons, ih, step_eq]
      cases hr : remnant? a <;> simp [hr, Backlog.extend]

/-- The attributes that stay in front of the class attribute. -/
def rest (as : List Attribute) : List Attribute :=
  (as.filter fun a => !a.isClass).filterMap remnant?

/-- The class attribute of a list after all directives and all changes that wait. -/
def classOf (as : List Attribute) : Option Attribute :=
  let others := as.filter fun a => !a.isClass
  settle
    { classSlot := others.foldl absorb (as.find? Attribute.isClass)
      backlog := ⟨others.flatMap fun a => (Directive.ofAttribute a).effect.deferred⟩
      stats := {} }

theorem finish_eq (state : State) :
    finish state = state.folded.reverse ++
      ((settle state).filter fun a => !Text.isBlankText a.text).toList := by
  simp only [finish]
  cases settle state with
  | none => simp
  | some a => by_cases ha : Text.isBlankText a.text <;> simp [ha, Option.filter]

/-- A fold returns the attributes that stay, then the class attribute unless it is blank. -/
theorem attributes_fst (as : List Attribute) (stats : Stats) :
    (attributes as stats).1 =
      rest as ++ ((classOf as).filter fun a => !Text.isBlankText a.text).toList := by
  simp only [attributes, finish_eq, foldl_step]
  simp [rest, classOf, settle, Backlog.extend, Backlog.isEmpty]

/-- A fold counts each attribute that is no class attribute. -/
theorem attributes_snd (as : List Attribute) (stats : Stats) :
    (attributes as stats).2 = (as.filter fun a => !a.isClass).foldl tally stats := by
  simp only [attributes, foldl_step]

/-- The counters never decide what becomes of an attribute. -/
theorem attributes_fst_eq (as : List Attribute) (stats stats' : Stats) :
    (attributes as stats).1 = (attributes as stats').1 := by
  rw [attributes_fst, attributes_fst]

/-! ### The class attribute -/

section

variable {p : Attribute → Prop} (hvalue : ∀ a value, p a → p { a with value := value })

include hvalue

theorem merge_of_value {a : Attribute} (ha : p a) (effect : Effect) : p (merge a effect) := by
  unfold merge
  split
  · exact ha
  · exact hvalue a _ ha

variable (hempty : p .emptyClass)

include hempty

theorem forall_absorb {slot : Option Attribute} (hslot : ∀ c ∈ slot, p c) (a : Attribute) :
    ∀ c ∈ absorb slot a, p c := by
  intro c hc
  unfold absorb at hc
  split at hc
  · obtain rfl := Option.some.inj hc
    apply merge_of_value hvalue
    cases slot with
    | none => exact hempty
    | some d => exact hslot d rfl
  · exact hslot c hc

theorem forall_foldl_absorb (as : List Attribute) {slot : Option Attribute}
    (hslot : ∀ c ∈ slot, p c) : ∀ c ∈ as.foldl absorb slot, p c := by
  induction as generalizing slot with
  | nil => exact hslot
  | cons a as ih => exact ih (forall_absorb hvalue hempty hslot a)

/-- What does not depend on a value passes from the class attribute that was there, or from the
empty one, to the class attribute of the fold. -/
theorem forall_classOf {as : List Attribute} (has : ∀ a ∈ as, a.isClass → p a) :
    ∀ c ∈ classOf as, p c := by
  have hslot : ∀ d ∈ as.find? Attribute.isClass, p d :=
    fun d hd => has d (List.mem_of_find?_eq_some hd) (List.find?_some hd)
  have hfold := forall_foldl_absorb hvalue hempty (as.filter fun a => !a.isClass) hslot
  intro c hc
  simp only [classOf, settle] at hc
  split at hc
  · exact hfold c hc
  · obtain rfl := Option.some.inj hc
    apply hvalue
    cases hs : (as.filter fun a => !a.isClass).foldl absorb (as.find? Attribute.isClass) with
    | none => exact hempty
    | some d => exact hfold d hs

end

/-- Nothing but a class attribute is put at the end. -/
theorem classOf_isClass {as : List Attribute} {c : Attribute} (h : classOf as = some c) :
    c.isClass :=
  forall_classOf (p := fun c => c.isClass) (fun _ _ ha => ha) rfl (fun _ _ ha => ha) c h

/-! ### Fields that are passed on -/

theorem extra_of_rename? {b : Binding} {a c : Attribute} (h : b.rename? a = some c) :
    c.extra = a.extra := by
  cases b <;> cases h <;> rfl

theorem extra_of_remnant? {a b : Attribute} (h : remnant? a = some b) : b.extra = a.extra := by
  unfold remnant? at h
  split at h
  · cases h
  · cases hr : renamed? a with
    | none =>
        rw [hr] at h
        cases h
        rfl
    | some c =>
        rw [hr] at h
        cases h
        unfold renamed? at hr
        split at hr
        · exact extra_of_rename? hr
        · cases hr

/-- A fold passes the unknown fields of the attributes on and adds none. -/
theorem extra_of_mem_attributes {as : List Attribute} {stats : Stats} {b : Attribute}
    (h : b ∈ (attributes as stats).1) : b.extra = [] ∨ ∃ a ∈ as, b.extra = a.extra := by
  rw [attributes_fst] at h
  rcases List.mem_append.mp h with h | h
  · obtain ⟨a, ha, hab⟩ := List.mem_filterMap.mp h
    exact .inr ⟨a, (List.mem_filter.mp ha).1, extra_of_remnant? hab⟩
  · have hclass := (Option.mem_filter_iff.mp (Option.mem_toList.mp h)).1
    exact forall_classOf (p := fun c => c.extra = [] ∨ ∃ a ∈ as, c.extra = a.extra)
      (fun _ _ hc => hc) (.inl rfl) (fun a ha _ => .inr ⟨a, ha, rfl⟩) b hclass

end FlexFold.Fold
