import FlexFold.Proofs.Json.Recognize

/-!
Which texts the reader of plain values accepts, and which texts are documents.
-/

namespace FlexFold.Json

open Decimal (isDigit)
open Reader

/-! ### Values -/

theorem Fields.follows_gather {item : Reader Value} {p : Value → Prop} (h : item.Recognizes p) :
    Follows (Fields.gather item) [] [] (fun _ => p) fun _ _ => False where
  required_subset := List.Subset.refl []
  start := fun _ => id
  refused := False.elim
  field := fun _ => ⟨_, rfl, h.map _, fun _ _ _ _ _ => by simp⟩
  finish := by simp [Fields.gather]

/-- The readers of what stands in the containers of a value. Without a reader there may be no
container. -/
def FitsBudget (inner : Option (Reader Value)) (budget : Nat) : Prop :=
  match inner with
  | none => budget = 0
  | some item => ∃ less, budget = less + 1 ∧ item.Recognizes fun v => v.nesting ≤ less

theorem Value.readerWith_sound {inner : Option (Reader Value)} {budget : Nat}
    (h : FitsBudget inner budget) {s t : List Char} {a : Value}
    (hrun : (Value.readerWith inner).run s = .ok (a, t)) :
    ∃ v u, Spells v u ∧ v.nesting ≤ budget ∧ skipSpaces s = u ++ t := by
  simp only [Value.readerWith, spaced, runSpaced] at hrun
  split at hrun
  · cases hrun
  next c u hc =>
  rw [hc]
  split at hrun
  · next hletter =>
      obtain ⟨-, rfl⟩ := literalAs_eq_ok_iff.mp hrun
      exact ⟨_, _, .null, Nat.zero_le _, by rw [hletter]; rfl⟩
  split at hrun
  · next hletter =>
      obtain ⟨-, rfl⟩ := literalAs_eq_ok_iff.mp hrun
      exact ⟨_, _, .true, Nat.zero_le _, by rw [hletter]; rfl⟩
  split at hrun
  · next hletter =>
      obtain ⟨-, rfl⟩ := literalAs_eq_ok_iff.mp hrun
      exact ⟨_, _, .false, Nat.zero_le _, by rw [hletter]; rfl⟩
  split at hrun
  · split at hrun
    · cases hrun
    · next n w hn =>
        cases hrun
        obtain ⟨x, hx, hvalue⟩ := exists_numeral hn
        exact ⟨_, _, .number hvalue, Nat.zero_le _, hx⟩
  split at hrun
  · next hquote =>
      split at hrun
      · cases hrun
      · next text w hw =>
          cases hrun
          obtain ⟨chars, body, hchars, rfl, rfl⟩ := stringBody_eq_ok_iff.mp hw
          exact ⟨_, _, .string hchars, Nat.zero_le _, by simp [hquote]⟩
  split at hrun
  · next hbracket =>
      split at hrun
      · cases hrun
      · next item =>
          obtain ⟨less, rfl, hitem⟩ := h
          split at hrun
          · cases hrun
          · next hitems =>
              cases hrun
              obtain ⟨items, body, hparts, hall, rfl⟩ := hitem.exists_parts hitems
              exact ⟨_, _, .array hparts, Value.nesting_array_le_iff.mpr hall, by simp [hbracket]⟩
  split at hrun
  · next hbrace =>
      split at hrun
      · cases hrun
      · next item =>
          obtain ⟨less, rfl, hitem⟩ := h
          obtain ⟨fields, body, hparts, hfit, rfl⟩ := (Fields.follows_gather hitem).exists_fields
            [] (by simp) (by simp) hrun
          exact ⟨_, _, .object hparts, Value.nesting_object_le_iff.mpr hfit.values,
            by simp [hbrace]⟩
  · cases hrun

theorem Value.readerWith_complete {inner : Option (Reader Value)} {budget : Nat}
    (h : FitsBudget inner budget) {v : Value} {u s t : List Char} (hv : Spells v u)
    (hfits : v.nesting ≤ budget) (ht : EndsNumber t) (hs : skipSpaces s = u ++ t) :
    ∃ a, (Value.readerWith inner).run s = .ok (a, t) := by
  cases hv with
  | null => exact ⟨.null, by simp [Value.readerWith, spaced, runSpaced, hs, literalAs, literal]⟩
  | true =>
      exact ⟨.bool true, by simp [Value.readerWith, spaced, runSpaced, hs, literalAs, literal]⟩
  | false =>
      exact ⟨.bool false, by simp [Value.readerWith, spaced, runSpaced, hs, literalAs, literal]⟩
  | @number x n hn =>
      have hnumber := (gives_number x (ht.stops x.fraction x.exponent)).ok n hn
      obtain ⟨c, w, htext, hc⟩ := x.exists_head
      rw [htext, List.cons_append] at hs hnumber
      have hne : c ≠ 'n' ∧ c ≠ 't' ∧ c ≠ 'f' := by
        refine ⟨?_, ?_, ?_⟩ <;> exact ne_of_isDigit hc (by decide)
      exact ⟨.number n, by simp [Value.readerWith, spaced, runSpaced, hs, hne, hc, hnumber]⟩
  | @string chars body hchars =>
      have hbody : stringBody (body ++ '"' :: t) = .ok (String.ofList chars, t) :=
        stringBody_eq_ok_iff.mpr ⟨chars, body, hchars, rfl, rfl⟩
      have hquote : isDigit '"' = false := rfl
      exact ⟨.string (String.ofList chars),
        by simp [Value.readerWith, spaced, runSpaced, hs, hquote, hbody]⟩
  | @array items body hparts =>
      have hopen : isDigit '[' = false := rfl
      cases inner with
      | none =>
          obtain rfl := h
          cases hfits
      | some item =>
          obtain ⟨less, rfl, hitem⟩ := h
          have hall := Value.nesting_array_le_iff.mp hfits
          obtain ⟨as, has⟩ := hitem.itemsOnto_parts hparts hall [] t
          exact ⟨.array as, by simp [Value.readerWith, spaced, runSpaced, hs, hopen, has]⟩
  | @object fields body hparts =>
      have hopen : isDigit '\x7b' = false := rfl
      cases inner with
      | none =>
          obtain rfl := h
          cases hfits
      | some item =>
          obtain ⟨less, rfl, hitem⟩ := h
          obtain ⟨a, ha⟩ := (Fields.follows_gather hitem).fieldsOnto_parts [] []
            (by simp) hparts
            ⟨by simp, by simp, Value.nesting_object_le_iff.mp hfits⟩ t
          rw [Fields.gather] at ha
          exact ⟨a, by simp [Value.readerWith, spaced, runSpaced, hs, hopen, ha]⟩

/-- A value is accepted if its containers fit in the budget, whatever else it is. -/
theorem Value.recognizes_reader (budget : Nat) :
    (Value.reader budget).Recognizes fun v => v.nesting ≤ budget := by
  induction budget with
  | zero =>
      have hfits : FitsBudget none 0 := rfl
      exact ⟨Value.readerWith_sound hfits, Value.readerWith_complete hfits⟩
  | succ budget ih =>
      have hfits : FitsBudget (some (Value.reader budget)) (budget + 1) := ⟨budget, rfl, ih⟩
      exact ⟨Value.readerWith_sound hfits, Value.readerWith_complete hfits⟩

/-! ### Documents -/

/-- A text is accepted exactly if it is a document whose value has the property. -/
theorem Reader.Recognizes.parse_iff {α : Type} {r : Reader α} {p : Value → Prop}
    (h : r.Recognizes p) (text : String) :
    (∃ a, r.parse text = .ok a) ↔ ∃ value, IsDocument value text.toList ∧ p value := by
  constructor
  · rintro ⟨a, hparse⟩
    simp only [Reader.parse] at hparse
    split at hparse
    · cases hparse
    · next t hrun =>
        obtain ⟨v, u, hv, hp, hs⟩ := h.sound hrun
        obtain ⟨w, hw, htext⟩ := exists_blank text.toList
        obtain ⟨w', hw', ht⟩ := exists_blank t
        split at hparse
        · next hend =>
            rw [hend, List.append_nil] at ht
            exact ⟨v, ⟨w, u, t, hw, hv, ht ▸ hw', by rw [← hs]; exact htext⟩, hp⟩
        · cases hparse
  · rintro ⟨v, ⟨w, u, w', hw, hv, hw', htext⟩, hp⟩
    have hends : EndsNumber w' := by
      have hnil := endsNumber_blank_append hw' endsNumber_nil
      rwa [List.append_nil] at hnil
    have hskip : skipSpaces text.toList = u ++ w' := by
      rw [htext, skipSpaces_blank_append hw, hv.skipSpaces_append]
    have hblank : skipSpaces w' = [] := by
      have hnil := skipSpaces_blank_append hw' []
      rwa [List.append_nil] at hnil
    obtain ⟨a, ha⟩ := h.complete hv hp hends hskip
    exact ⟨a, by simp only [Reader.parse, ha, hblank]⟩

end FlexFold.Json
