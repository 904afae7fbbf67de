import FlexFold.Json.Reader
import FlexFold.Proofs.Json.Numbers

/-!
What printed text looks like from the front: a value begins with a character that no reader skips,
and what follows a part does not go on with a number.
-/

namespace FlexFold.Json

open Decimal (Scientific digits isDigit)

/-! ### Blanks -/

/-- Begins with a character that can begin an item. -/
def StartsItem (s : List Char) : Prop := ∃ c t, s = c :: t ∧ isSpace c = false ∧ c ≠ ']'

theorem skipSpaces_of_startsItem {s : List Char} (h : StartsItem s) : skipSpaces s = s := by
  obtain ⟨c, t, rfl, hc, -⟩ := h
  rw [skipSpaces, hc]
  rfl

theorem skipSpaces_skipSpaces (s : List Char) : skipSpaces (skipSpaces s) = skipSpaces s := by
  induction s with
  | nil => rfl
  | cons c s ih =>
      by_cases hc : isSpace c = true
      · rw [skipSpaces, if_pos hc, ih]
      · rw [skipSpaces, if_neg hc, skipSpaces, if_neg hc]

theorem skipSpaces_replicate (n : Nat) (s : List Char) :
    skipSpaces (List.replicate n ' ' ++ s) = skipSpaces s := by
  induction n with
  | zero => rfl
  | succ n ih => exact ih

theorem skipSpaces_lineBefore (layout : Layout) (depth : Nat) (s : List Char) :
    skipSpaces (layout.lineBefore depth s) = skipSpaces s := by
  cases layout with
  | compact => rfl
  | pretty => exact skipSpaces_replicate (2 * depth) s

theorem colonBefore_eq (layout : Layout) (s : List Char) :
    ∃ t, layout.colonBefore s = ':' :: t ∧ skipSpaces t = skipSpaces s := by
  cases layout with
  | compact => exact ⟨s, rfl, rfl⟩
  | pretty => exact ⟨' ' :: s, rfl, rfl⟩

/-! ### What follows a number -/

theorem endsNumber_cons {c : Char} {s : List Char} (hdigit : isDigit c = false)
    (hexponent : (c == 'e' || c == 'E') = false) (hpoint : c ≠ '.') : EndsNumber (c :: s) :=
  ⟨hdigit, hexponent, fun h => hpoint (Option.some.inj h)⟩

theorem endsNumber_nil : EndsNumber [] := ⟨rfl, rfl, nofun⟩

theorem endsNumber_lineBefore {layout : Layout} {depth : Nat} {s : List Char}
    (h : EndsNumber s) : EndsNumber (layout.lineBefore depth s) := by
  cases layout with
  | compact => exact h
  | pretty => exact endsNumber_cons rfl rfl (by decide)

theorem endsNumber_itemsBefore (layout : Layout) (depth : Nat) (items : List Value)
    (tail : List Char) : EndsNumber (Value.itemsBefore layout depth items tail) := by
  cases items with
  | nil => exact endsNumber_lineBefore (endsNumber_cons rfl rfl (by decide))
  | cons item items => exact endsNumber_cons rfl rfl (by decide)

theorem endsNumber_fieldsBefore (layout : Layout) (depth : Nat) (fields : Fields)
    (tail : List Char) : EndsNumber (Value.fieldsBefore layout depth fields tail) := by
  cases fields with
  | nil => exact endsNumber_lineBefore (endsNumber_cons rfl rfl (by decide))
  | cons field fields => exact endsNumber_cons rfl rfl (by decide)

/-! ### How text begins -/

theorem digits_head (n : Nat) : ∃ c ds, digits n = c :: ds ∧ isDigit c := by
  by_cases hzero : n = 0
  · exact ⟨'0', [], by rw [hzero]; rfl, rfl⟩
  · obtain ⟨c, ds, hds, -, hdigit, -⟩ := Decimal.digits_eq_cons hzero
    exact ⟨c, ds, hds, hdigit⟩

theorem scientificText_head (x : Scientific) : ∃ c t, scientificText x = c :: t ∧ isDigit c := by
  obtain ⟨c, ds, hds, hc⟩ := digits_head x.digits
  unfold scientificText
  simp only [hds]
  split
  · exact ⟨c, _, rfl, hc⟩
  · split
    · exact ⟨'0', _, rfl, rfl⟩
    · next hpoint =>
        split
        · exact ⟨c, _, rfl, hc⟩
        · have hpos := Int.pos_iff_toNat_pos.mp (Int.not_le.mp hpoint)
          obtain ⟨k, hk⟩ := Nat.exists_eq_add_of_lt hpos
          rw [hk, Nat.zero_add]
          exact ⟨c, _, rfl, hc⟩

/-- Every number begins with a sign or a digit. -/
theorem Number.text_head (x : Number) : ∃ c t, x.text = c :: t ∧ (c = '-' ∨ isDigit c) := by
  cases x with
  | integer i =>
      obtain ⟨c, t, ht, hc⟩ := digits_head i.natAbs
      rw [Number.text]
      split
      · exact ⟨'-', _, rfl, .inl rfl⟩
      · exact ⟨c, t, ht, .inr hc⟩
  | double x =>
      obtain ⟨c, t, ht, hc⟩ := scientificText_head x.magnitude.shortest
      rw [Number.text, doubleText]
      split
      · exact ⟨'-', _, rfl, .inl rfl⟩
      · split
        · exact ⟨'0', _, rfl, .inr rfl⟩
        · exact ⟨c, t, ht, .inr hc⟩

theorem ne_of_isDigit {c d : Char} (hc : c = '-' ∨ isDigit c)
    (hd : d ≠ '-' ∧ isDigit d = false) : c ≠ d := by
  rintro rfl
  rcases hc with hc | hc
  · exact hd.1 hc
  · rw [hd.2] at hc
    cases hc

theorem isSpace_of_isDigit {c : Char} (hc : c = '-' ∨ isDigit c) : isSpace c = false := by
  have hne : c ≠ ' ' ∧ c ≠ '\n' ∧ c ≠ '\t' ∧ c ≠ '\r' := by
    refine ⟨?_, ?_, ?_, ?_⟩ <;> exact ne_of_isDigit hc (by decide)
  simp [isSpace, hne]

theorem printBefore_array (layout : Layout) (depth : Nat) (items : List Value)
    (tail : List Char) : ∃ t, (Value.array items).printBefore layout depth tail = '[' :: t := by
  cases items <;> exact ⟨_, by rw [Value.printBefore]⟩

theorem printBefore_object (layout : Layout) (depth : Nat) (fields : Fields)
    (tail : List Char) :
    ∃ t, (Value.object fields).printBefore layout depth tail = '\x7b' :: t := by
  cases fields <;> exact ⟨_, by rw [Value.printBefore]⟩

theorem startsItem_printBefore (layout : Layout) (depth : Nat) (value : Value)
    (tail : List Char) : StartsItem (value.printBefore layout depth tail) := by
  cases value with
  | null => exact ⟨'n', _, by rw [Value.printBefore], rfl, by decide⟩
  | bool b =>
      cases b with
      | true => exact ⟨'t', _, by rw [Value.printBefore], rfl, by decide⟩
      | false => exact ⟨'f', _, by rw [Value.printBefore], rfl, by decide⟩
  | number x =>
      obtain ⟨c, t, ht, hc⟩ := x.text_head
      exact ⟨c, t ++ tail, by rw [Value.printBefore, ht]; rfl, isSpace_of_isDigit hc,
        ne_of_isDigit hc (by decide)⟩
  | string s => exact ⟨'"', _, by rw [Value.printBefore]; rfl, rfl, by decide⟩
  | array items =>
      obtain ⟨t, ht⟩ := printBefore_array layout depth items tail
      exact ⟨'[', t, ht, rfl, by decide⟩
  | object fields =>
      obtain ⟨t, ht⟩ := printBefore_object layout depth fields tail
      exact ⟨'\x7b', t, ht, rfl, by decide⟩

/-- Only `null` is printed with its first letter. -/
theorem printBefore_ne_null {value : Value} (h : value ≠ .null) (layout : Layout) (depth : Nat)
    (tail t : List Char) : value.printBefore layout depth tail ≠ 'n' :: t := by
  intro hprint
  cases value with
  | null => exact h rfl
  | bool b => cases b <;> rw [Value.printBefore] at hprint <;> cases hprint
  | number x =>
      obtain ⟨c, u, hu, hc⟩ := x.text_head
      rw [Value.printBefore, hu] at hprint
      exact ne_of_isDigit hc (by decide) (List.cons.inj hprint).1
  | string s =>
      rw [Value.printBefore] at hprint
      cases hprint
  | array items =>
      obtain ⟨u, hu⟩ := printBefore_array layout depth items tail
      rw [hu] at hprint
      cases hprint
  | object fields =>
      obtain ⟨u, hu⟩ := printBefore_object layout depth fields tail
      rw [hu] at hprint
      cases hprint

theorem skipSpaces_printBefore (layout : Layout) (depth : Nat) (value : Value)
    (tail : List Char) :
    skipSpaces (value.printBefore layout depth tail) = value.printBefore layout depth tail :=
  skipSpaces_of_startsItem (startsItem_printBefore ..)

end FlexFold.Json
