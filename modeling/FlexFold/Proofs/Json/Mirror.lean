import FlexFold.Proofs.Json.Recover
import FlexFold.Proofs.Json.Sorted
import FlexFold.Proofs.Json.Yields

/-!
Readers of typed data beside the reader of plain values. Whatever a typed reader takes off some
text, the plain one takes off too and returns the value that was there; for an object this is an
invariant between the fields that either of them has gathered so far.
-/

namespace FlexFold.Json

namespace Reader

variable {α β σ : Type} {rel : α → Value → Prop} {r : Reader α} {plain : Reader Value}
  {budget : Nat}

/-- Whatever `r` takes off some text, `plain` takes off too, as a value that is related to what
`r` returns. -/
def Mirrors (r : Reader α) (plain : Reader Value) (rel : α → Value → Prop) : Prop :=
  ∀ s a t, r.run s = .ok (a, t) → ∃ v, plain.run s = .ok (v, t) ∧ rel a v

theorem mirrors_self (plain : Reader Value) : Mirrors plain plain (· = ·) :=
  fun _ v _ h => ⟨v, h, rfl⟩

theorem Mirrors.map {rel' : β → Value → Prop} {f : α → β} (h : Mirrors r plain rel)
    (hf : ∀ a v, rel a v → rel' (f a) v) : Mirrors (r.map f) plain rel' := by
  intro s b t hrun
  simp only [Reader.map] at hrun
  split at hrun
  · cases hrun
  · next a u ha =>
      cases hrun
      obtain ⟨v, hv, hrel⟩ := h _ _ _ ha
      exact ⟨v, hv, hf a v hrel⟩

/-- What all results of a reader have in common may be used of the related values. -/
theorem Mirrors.and {p : α → Prop} (h : Mirrors r plain rel) (hp : r.Yields p) :
    Mirrors r plain fun a v => p a ∧ rel a v := by
  intro s a t hrun
  obtain ⟨v, hv, hrel⟩ := h _ _ _ hrun
  exact ⟨v, hv, hp _ _ _ hrun, hrel⟩

/-! ### Scalars -/

theorem mirrors_string (budget : Nat) :
    Mirrors string (Value.reader budget) fun s v => v = .string s := by
  intro s text t hrun
  obtain ⟨inner, hinner⟩ := Value.reader_eq budget
  refine ⟨.string text, ?_, rfl⟩
  simp only [string, spaced, runSpaced] at hrun
  split at hrun
  · cases hrun
  · next c u hc =>
      split at hrun
      · next hquote =>
          subst hquote
          have hdigit : Decimal.isDigit '"' = false := rfl
          simp [hinner, Value.readerWith, spaced, runSpaced, hc, hdigit, hrun]
      · cases hrun

theorem reader_run_skipSpaces (budget : Nat) (s : List Char) :
    (Value.reader budget).run (skipSpaces s) = (Value.reader budget).run s := by
  obtain ⟨inner, hinner⟩ := Value.reader_eq budget
  simp only [hinner, Value.readerWith, spaced, runSpaced, skipSpaces_skipSpaces]

/-- The value of something that may be missing. -/
def orNull (value : α → Value) : Option α → Value
  | none => .null
  | some a => value a

theorem Mirrors.nullable {value : α → Value} {norm : Value → Value} (hnull : norm .null = .null)
    (h : Mirrors r (Value.reader budget) fun a v => norm v = value a) :
    Mirrors r.nullable (Value.reader budget) fun found v => norm v = orNull value found := by
  intro s found t hrun
  simp only [Reader.nullable] at hrun
  split at hrun
  · next u hu =>
      obtain ⟨inner, hinner⟩ := Value.reader_eq budget
      unfold literalAs at hrun
      split at hrun <;> cases hrun
      next hliteral =>
        refine ⟨.null, ?_, hnull⟩
        simp [hinner, Value.readerWith, spaced, runSpaced, hu, literalAs, hliteral]
  · split at hrun
    · cases hrun
    · next a u ha =>
        cases hrun
        obtain ⟨v, hv, hrel⟩ := h _ _ _ ha
        exact ⟨v, reader_run_skipSpaces budget s ▸ hv, hrel⟩

/-! ### Arrays -/

section

variable {γ : Type} {f : α → γ} {g : Value → γ}

theorem itemsOnto_mirrored (h : Mirrors r plain fun a v => f a = g v) {before as : List α}
    {beforePlain : List Value} {first : Bool} {s t : List Char}
    (hbefore : before.map f = beforePlain.map g)
    (hrun : itemsOnto r before first s = .ok (as, t)) :
    ∃ items, itemsOnto plain beforePlain first s = .ok (items, t) ∧ as.map f = items.map g := by
  fun_induction itemsOnto r before first s generalizing beforePlain with
  | case1 => cases hrun
  | case2 before first s u hn =>
      cases hrun
      refine ⟨beforePlain.reverse, itemsOnto_close hn, ?_⟩
      rw [List.map_reverse, List.map_reverse, hbefore]
  | case3 => cases hrun
  | case4 before first s u hn a w ha ih =>
      obtain ⟨v, hv, hrel⟩ := h _ _ _ ha
      have hnext : (a :: before).map f = (v :: beforePlain).map g := by
        rw [List.map_cons, List.map_cons, hrel, hbefore]
      obtain ⟨items, hitems, hmap⟩ := ih hnext hrun
      refine ⟨items, ?_, hmap⟩
      rw [itemsOnto_part hn, hv]
      exact hitems

/-- Arrays are mirrored item by item, as long as both readers may open them. -/
theorem mirrors_array {item : Option (Reader α)}
    (h : ∀ r ∈ item, ∃ less, budget = less + 1 ∧
      Mirrors r (Value.reader less) fun a v => f a = g v) :
    Mirrors (array item) (Value.reader budget) fun as v =>
      ∃ items, v = .array items ∧ as.map f = items.map g := by
  intro s as t hrun
  simp only [array, spaced, runSpaced] at hrun
  split at hrun
  · cases hrun
  · next c u hc =>
      split at hrun
      · next hbracket =>
          subst hbracket
          split at hrun
          · cases hrun
          · next r =>
              obtain ⟨less, rfl, hmirrors⟩ := h r rfl
              have hstart : ([] : List α).map f = ([] : List Value).map g := rfl
              obtain ⟨items, hitems, hmap⟩ := itemsOnto_mirrored hmirrors hstart hrun
              refine ⟨.array items, ?_, items, rfl, hmap⟩
              have hdigit : Decimal.isDigit '[' = false := rfl
              simp [Value.reader, Value.readerWith, spaced, runSpaced, hc, hdigit, hitems]
      · cases hrun

end

/-! ### Objects -/

/-- What a typed object and the plain fields of the same text have in common, field by field. -/
structure Tracks (g : Gather σ α) (plain : Reader Value) (inv : σ → Fields → Prop)
    (rel : α → Value → Prop) : Prop where
  start : inv g.start []
  field : ∀ {state fields key r}, inv state fields → g.field state key = .ok r →
    Mirrors r plain fun next v => inv next (Fields.insert key v fields)
  finish : ∀ {state fields a}, inv state fields → g.finish state = .ok a → rel a (.object fields)

theorem Tracks.fieldsOnto_mirrored {g : Gather σ α} {inv : σ → Fields → Prop}
    (h : Tracks g plain inv rel) {state : σ} {fields : Fields} {first : Bool} {s t : List Char}
    {a : α} (hinv : inv state fields) (hrun : fieldsOnto g state first s = .ok (a, t)) :
    ∃ v, fieldsOnto (Fields.gather plain) fields first s = .ok (v, t) ∧ rel a v := by
  fun_induction fieldsOnto g state first s generalizing fields with
  | case3 state first s u hn b hb =>
      cases hrun
      exact ⟨.object fields, fieldsOnto_close hn rfl, h.finish hinv hb⟩
  | case8 state first s s₁ hn key s₂ hk r hfield s₃ hc next w hr ih =>
      obtain ⟨v, hv, hnext⟩ := h.field hinv hfield _ _ _ hr
      obtain ⟨all, hall, hrel⟩ := ih hnext hrun
      refine ⟨all, ?_, hrel⟩
      rw [fieldsOnto_part hn hk rfl hc]
      simp only [Reader.map, hv, hall]
  | _ => cases hrun

theorem Tracks.mirrors_object {g : Gather σ α} {inv : σ → Fields → Prop}
    (h : Tracks g (Value.reader budget) inv rel) (expected : String) :
    Mirrors (object expected true g) (Value.reader (budget + 1)) rel := by
  intro s a t hrun
  simp only [object, spaced, runSpaced] at hrun
  split at hrun
  · cases hrun
  · next c u hc =>
      split at hrun
      · next hbrace =>
          subst hbrace
          obtain ⟨v, hv, hrel⟩ := h.fieldsOnto_mirrored h.start hrun
          refine ⟨v, ?_, hrel⟩
          have hdigit : Decimal.isDigit '\x7b' = false := rfl
          rw [Fields.gather] at hv
          simp [Value.reader, Value.readerWith, spaced, runSpaced, hc, hdigit, hv]
      · cases hrun

/-- An object that may not be opened is read by nobody. -/
theorem mirrors_object_refused (g : Gather σ α) (expected : String) (plain : Reader Value)
    (rel : α → Value → Prop) : Mirrors (object expected false g) plain rel := by
  intro s a t hrun
  simp only [object, spaced, runSpaced] at hrun
  split at hrun
  · cases hrun
  · split at hrun <;> cases hrun

theorem Mirrors.parse (h : Mirrors r plain rel) {text : String} {a : α}
    (hparse : r.parse text = .ok a) : ∃ v, plain.parse text = .ok v ∧ rel a v := by
  simp only [Reader.parse] at hparse ⊢
  split at hparse
  · cases hparse
  · next t hrun =>
      obtain ⟨v, hv, hrel⟩ := h _ _ _ hrun
      split at hparse
      · next hend =>
          cases hparse
          refine ⟨v, ?_, hrel⟩
          simp only [hv, hend]
      · cases hparse

end Reader

end FlexFold.Json
