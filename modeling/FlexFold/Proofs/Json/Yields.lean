import FlexFold.Json.Reader
import FlexFold.Proofs.Json.Shape

/-!
What is true of everything that a reader takes off some text. For an object this is an invariant
of the fields that were met so far.
-/

namespace FlexFold.Json

namespace Reader

variable {α β σ : Type} {p : α → Prop}

/-- All that a reader returns has a property. -/
def Yields (r : Reader α) (p : α → Prop) : Prop := ∀ s a t, r.run s = .ok (a, t) → p a

theorem yields_trivial (r : Reader α) : r.Yields fun _ => True := fun _ _ _ _ => trivial

theorem Yields.map {r : Reader α} {f : α → β} {q : β → Prop} (h : r.Yields p)
    (hf : ∀ a, p a → q (f a)) : (r.map f).Yields q := by
  intro s b t hrun
  simp only [Reader.map] at hrun
  split at hrun
  · cases hrun
  · next a u ha =>
      cases hrun
      exact hf a (h _ _ _ ha)

theorem Yields.nullable {r : Reader α} (h : r.Yields p) :
    r.nullable.Yields fun found => ∀ a ∈ found, p a := by
  intro s found t hrun
  simp only [Reader.nullable] at hrun
  split at hrun
  · unfold literalAs at hrun
    split at hrun <;> cases hrun
    intro b hb
    cases hb
  · split at hrun
    · cases hrun
    · next a u ha =>
        cases hrun
        intro b hb
        cases hb
        exact h _ _ _ ha

theorem forall_of_itemsOnto {item : Reader α} (h : item.Yields p) {before as : List α}
    {first : Bool} {s t : List Char} (hbefore : ∀ a ∈ before, p a)
    (hrun : itemsOnto item before first s = .ok (as, t)) : ∀ a ∈ as, p a := by
  fun_induction itemsOnto item before first s with
  | case1 => cases hrun
  | case2 =>
      cases hrun
      simpa using hbefore
  | case3 => cases hrun
  | case4 before first s u _ a v ha ih =>
      exact ih (List.forall_mem_cons.mpr ⟨h _ _ _ ha, hbefore⟩) hrun

theorem yields_array {item : Option (Reader α)} (h : ∀ r ∈ item, r.Yields p) :
    (array item).Yields fun as => ∀ a ∈ as, p a := by
  intro s as t hrun
  simp only [array, spaced, runSpaced] at hrun
  split at hrun
  · cases hrun
  · split at hrun
    · split at hrun
      · cases hrun
      · next r => exact forall_of_itemsOnto (h r rfl) (by simp) hrun
    · cases hrun

/-- An invariant of the fields that were met, and what follows from it in the end. -/
structure Keeps (g : Gather σ α) (inv : σ → Prop) (p : α → Prop) : Prop where
  start : inv g.start
  field : ∀ {state key r}, inv state → g.field state key = .ok r → r.Yields inv
  finish : ∀ {state a}, inv state → g.finish state = .ok a → p a

theorem Keeps.of_fieldsOnto {g : Gather σ α} {inv : σ → Prop} (h : Keeps g inv p) {state : σ}
    {first : Bool} {s t : List Char} {a : α} (hstate : inv state)
    (hrun : fieldsOnto g state first s = .ok (a, t)) : p a := by
  fun_induction fieldsOnto g state first s with
  | case3 state first s u _ b hb =>
      cases hrun
      exact h.finish hstate hb
  | case8 state first s s₁ _ key s₂ _ r hfield s₃ _ next v hr ih =>
      exact ih (h.field hstate hfield _ _ _ hr) hrun
  | _ => cases hrun

theorem Keeps.yields_object {g : Gather σ α} {inv : σ → Prop} (h : Keeps g inv p)
    (expected : String) (mayOpen : Bool) : (object expected mayOpen g).Yields p := by
  intro s a t hrun
  simp only [object, spaced, runSpaced] at hrun
  split at hrun
  · cases hrun
  · split at hrun
    · split at hrun
      · exact h.of_fieldsOnto h.start hrun
      · cases hrun
    · cases hrun

theorem Yields.of_parse {r : Reader α} {text : String} {a : α} (h : r.Yields p)
    (hparse : r.parse text = .ok a) : p a := by
  simp only [parse] at hparse
  split at hparse
  · cases hparse
  · next hrun =>
      split at hparse <;> cases hparse
      exact h _ _ _ hrun

end Reader

open Reader

/-- The fields of an object, as long as they are kept sorted. -/
structure Fields.AreRead (fields : Fields) : Prop where
  sorted : Fields.IsSorted fields
  values : ∀ field ∈ fields, field.2.IsRead

theorem Fields.AreRead.insert {fields : Fields} {key : String} {value : Value}
    (h : Fields.AreRead fields) (hvalue : value.IsRead) :
    Fields.AreRead (Fields.insert key value fields) := by
  refine ⟨Fields.isSorted_insert h.sorted, fun field hmem => ?_⟩
  rcases Fields.mem_insert hmem with rfl | hmem
  · exact hvalue
  · exact h.values field hmem

theorem Fields.keeps_gather {item : Reader Value} (h : item.Yields Value.IsRead) :
    Keeps (Fields.gather item) Fields.AreRead Value.IsRead where
  start := ⟨.nil, nofun⟩
  field := by
    intro fields key r hfields hr
    cases hr
    exact h.map fun v hv => hfields.insert hv
  finish := by
    intro fields value hfields hvalue
    cases hvalue
    exact .object hfields.sorted hfields.values

theorem isRead_of_literalAs {letters t u : List Char} {value a : Value} (hvalue : value.IsRead)
    (h : literalAs letters value t = .ok (a, u)) : a.IsRead := by
  unfold literalAs at h
  split at h <;> cases h
  exact hvalue

theorem Value.yields_readerWith {inner : Option (Reader Value)}
    (h : ∀ r ∈ inner, r.Yields Value.IsRead) :
    (Value.readerWith inner).Yields Value.IsRead := by
  intro s a t hrun
  simp only [Value.readerWith, spaced, runSpaced] at hrun
  split at hrun
  · cases hrun
  split at hrun
  · exact isRead_of_literalAs .null hrun
  split at hrun
  · exact isRead_of_literalAs (.bool true) hrun
  split at hrun
  · exact isRead_of_literalAs (.bool false) hrun
  split at hrun
  · split at hrun
    · cases hrun
    · next x u hx =>
        cases hrun
        cases x with
        | integer i => exact .integer (inRange_of_number hx)
        | double x => exact .double x
  split at hrun
  · split at hrun <;> cases hrun
    exact .string _
  split at hrun
  · split at hrun
    · cases hrun
    · next r =>
        split at hrun
        · cases hrun
        · next hitems =>
            cases hrun
            exact .array (forall_of_itemsOnto (h r rfl) (by simp) hitems)
  split at hrun
  · split at hrun
    · cases hrun
    · next r =>
        have hkeeps := Fields.keeps_gather (h r rfl)
        exact hkeeps.of_fieldsOnto hkeeps.start hrun
  · cases hrun

theorem Value.yields_reader (budget : Nat) : (Value.reader budget).Yields Value.IsRead := by
  induction budget with
  | zero => exact Value.yields_readerWith nofun
  | succ budget ih =>
      refine Value.yields_readerWith fun r hr => ?_
      cases hr
      exact ih

end FlexFold.Json
