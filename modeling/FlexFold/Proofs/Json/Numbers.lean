import FlexFold.Json.Lexeme
import FlexFold.Json.Printer

/-!
Whole numbers are read as they are printed, as long as nothing follows that would go on with the
number. Every integer that is read fits a machine word.
-/

namespace FlexFold.Decimal

/-! ### Digits -/

theorem isDigit_digitChar : ∀ d < 10, isDigit (digitChar d) = true := by decide

theorem digitValue_digitChar : ∀ d < 10, digitValue (digitChar d) = d := by decide

theorem digitChar_eq_zero_iff : ∀ d < 10, digitChar d = '0' ↔ d = 0 := by decide

theorem digitValue_lt {c : Char} (h : isDigit c = true) : digitValue c < 10 := by
  simp only [isDigit, Bool.and_eq_true, decide_eq_true_eq] at h
  have hle : c.toNat ≤ '9'.toNat := h.2
  have hnine : '9'.toNat = 57 := rfl
  unfold digitValue
  omega

theorem readOnto_digitsBefore (n : Nat) (tail : List Char) :
    readOnto 0 (digitsBefore n tail) = readOnto n tail := by
  induction n using Nat.strongRecOn generalizing tail with
  | ind n ih =>
      rw [digitsBefore]
      by_cases hn : n = 0
      · simp [hn]
      · rw [if_neg hn, ih (n / 10) (Nat.div_lt_self (by omega) (by omega))]
        have hvalue := digitValue_digitChar (n % 10) (Nat.mod_lt n (by omega))
        have hsplit : n / 10 * 10 + n % 10 = n := Nat.div_add_mod' n 10
        simp only [readOnto, List.foldl_cons, hvalue, hsplit]

theorem isDigit_of_mem_digitsBefore {n : Nat} {tail : List Char}
    (htail : ∀ c ∈ tail, isDigit c = true) : ∀ c ∈ digitsBefore n tail, isDigit c = true := by
  induction n using Nat.strongRecOn generalizing tail with
  | ind n ih =>
      rw [digitsBefore]
      by_cases hn : n = 0
      · simpa [hn] using htail
      · rw [if_neg hn]
        apply ih (n / 10) (Nat.div_lt_self (by omega) (by omega))
        intro c hc
        rcases List.mem_cons.mp hc with rfl | hc
        · exact isDigit_digitChar _ (Nat.mod_lt n (by omega))
        · exact htail c hc

/-- A positive number does not begin with a zero. -/
theorem head?_digitsBefore {n : Nat} (hn : n ≠ 0) (tail : List Char) :
    ∃ c ∈ (digitsBefore n tail).head?, c ≠ '0' := by
  induction n using Nat.strongRecOn generalizing tail with
  | ind n ih =>
      rw [digitsBefore, if_neg hn]
      by_cases hten : n / 10 = 0
      · rw [hten, digitsBefore, if_pos rfl]
        refine ⟨digitChar (n % 10), rfl, ?_⟩
        rw [Ne, digitChar_eq_zero_iff _ (Nat.mod_lt n (by omega))]
        omega
      · exact ih (n / 10) (Nat.div_lt_self (by omega) (by omega)) hten _

theorem digits_eq_cons {n : Nat} (hn : n ≠ 0) :
    ∃ c ds, digits n = c :: ds ∧ c ≠ '0' ∧ isDigit c = true ∧ (∀ d ∈ ds, isDigit d = true) ∧
      readOnto (digitValue c) ds = n := by
  have hread := readOnto_digitsBefore n []
  have hall : ∀ d ∈ digitsBefore n [], isDigit d = true := isDigit_of_mem_digitsBefore (by simp)
  obtain ⟨c, hc, hzero⟩ := head?_digitsBefore hn []
  obtain ⟨ds, hds⟩ := List.head?_eq_some_iff.mp hc
  rw [hds] at hread hall
  refine ⟨c, ds, by rw [digits, if_neg hn, hds], hzero, hall c (by simp), ?_, ?_⟩
  · intro d hd
    exact hall d (by simp [hd])
  · simpa [readOnto] using hread

end FlexFold.Decimal

namespace FlexFold.Json

open Decimal (isDigit digitValue digits readOnto maxWord)

/-! ### Reading -/

/-- Nothing that would go on with a number. -/
structure EndsNumber (tail : List Char) : Prop where
  digit : startsWithDigit tail = false
  exponent : startsWithExponent tail = false
  point : tail.head? ≠ some '.'

theorem le_readOnto (n : Nat) (ds : List Char) : n ≤ readOnto n ds := by
  induction ds generalizing n with
  | nil => exact Nat.le_refl n
  | cons c ds ih =>
      have := ih (n * 10 + digitValue c)
      simp only [readOnto, List.foldl_cons] at this ⊢
      omega

theorem significand_append {ds tail : List Char} {n : Nat} (count : Nat)
    (hds : ∀ d ∈ ds, isDigit d = true) (hmax : readOnto n ds ≤ maxWord)
    (htail : startsWithDigit tail = false) :
    significand n count (ds ++ tail) = (readOnto n ds, count + ds.length, tail) := by
  induction ds generalizing n count with
  | nil =>
      cases tail with
      | nil => rfl
      | cons c tail =>
          have hc : isDigit c = false := htail
          simp [significand, hc, readOnto]
  | cons d ds ih =>
      have hd := hds d (by simp)
      have hle : n * 10 + digitValue d ≤ maxWord :=
        Nat.le_trans (le_readOnto _ ds) hmax
      rw [List.cons_append, significand, if_pos ⟨hd, hle⟩,
        ih (count + 1) (fun c hc => hds c (by simp [hc])) hmax, List.length_cons]
      simp only [readOnto, List.foldl_cons]
      congr 2
      omega

theorem afterDigits_of_endsNumber {tail : List Char} (htail : EndsNumber tail) (negative : Bool)
    (n : Nat) : afterDigits negative n 0 tail = wholeNumber negative n tail := by
  unfold afterDigits
  split
  · exact (htail.point rfl).elim
  · simp [htail.exponent]

theorem unsignedNumber_digits {n : Nat} {tail : List Char} (hn : n ≤ maxWord)
    (htail : EndsNumber tail) (negative : Bool) :
    unsignedNumber negative (digits n ++ tail) = wholeNumber negative n tail := by
  by_cases hzero : n = 0
  · subst hzero
    have hdigits : digits 0 = ['0'] := rfl
    simp [hdigits, unsignedNumber, htail.digit, afterDigits_of_endsNumber htail]
  · obtain ⟨c, ds, hds, hc, hdigit, hall, hread⟩ := Decimal.digits_eq_cons hzero
    have hskip : skipDigits tail = tail ∧ (tail.takeWhile isDigit).length = 0 := by
      cases tail with
      | nil => exact ⟨rfl, rfl⟩
      | cons d tail =>
          have hd : isDigit d = false := htail.digit
          simp [skipDigits, hd]
    rw [hds, List.cons_append, unsignedNumber]
    simp only [hc, hdigit, if_false, if_true]
    rw [significand_append 0 hall (by omega) htail.digit]
    simp only [hread, hskip.1, hskip.2]
    exact afterDigits_of_endsNumber htail negative n

/-- The integers that are kept exactly. -/
def InRange (i : Int) : Prop := -(Nat.pow 2 63 : Nat) ≤ i ∧ i ≤ (maxWord : Nat)

theorem number_text {i : Int} {tail : List Char} (hi : InRange i) (htail : EndsNumber tail) :
    number ((Number.integer i).text ++ tail) = .ok (.integer i, tail) := by
  obtain ⟨hlow, hhigh⟩ := hi
  have hpow : Nat.pow 2 63 ≤ maxWord := by decide
  by_cases hneg : i < 0
  · have hle : i.natAbs ≤ Nat.pow 2 63 := by omega
    have hpos : 0 < i.natAbs := by omega
    rw [Number.text, if_pos hneg, List.cons_append, number,
      unsignedNumber_digits (Nat.le_trans hle hpow) htail, wholeNumber, if_pos rfl,
      if_pos ⟨hpos, hle⟩]
    congr 3
    omega
  · have hle : i.natAbs ≤ maxWord := by omega
    have hminus : ∀ t, digits i.natAbs ++ tail ≠ '-' :: t := by
      intro t ht
      by_cases hzero : i.natAbs = 0
      · rw [hzero] at ht
        cases ht
      · obtain ⟨c, ds, hds, -, hdigit, -⟩ := Decimal.digits_eq_cons hzero
        rw [hds] at ht
        obtain rfl := (List.cons.inj ht).1
        cases hdigit
    rw [Number.text, if_neg hneg]
    unfold number
    split
    · next t ht => exact (hminus t ht).elim
    · rw [unsignedNumber_digits hle htail, wholeNumber, if_neg (by simp)]
      congr 3
      omega

/-! ### What is read -/

theorem significand_le {n : Nat} (hn : n ≤ maxWord) (count : Nat) (s : List Char) :
    (significand n count s).1 ≤ maxWord := by
  induction s generalizing n count with
  | nil => exact hn
  | cons c s ih =>
      rw [significand]
      split
      · next h => exact ih h.2 (count + 1)
      · exact hn

theorem doubleOf_ne_integer {negative : Bool} {n : Nat} {e i : Int} {s t : List Char} :
    doubleOf negative n e s ≠ .ok (.integer i, t) := by
  unfold doubleOf
  split <;> simp

theorem exponentOrEnd_ne_integer {negative : Bool} {n : Nat} {e i : Int} {s t : List Char} :
    exponentOrEnd negative n e s ≠ .ok (.integer i, t) := by
  unfold exponentOrEnd
  split
  · exact doubleOf_ne_integer
  · split
    · unfold exponentPart
      split
      split
      · simp
      · split
        · split
          · exact doubleOf_ne_integer
          · split <;> simp
        · simp
    · exact doubleOf_ne_integer

theorem fractionPart_ne_integer {negative : Bool} {n : Nat} {e i : Int} {s t : List Char} :
    fractionPart negative n e s ≠ .ok (.integer i, t) := by
  unfold fractionPart
  split
  dsimp only
  split
  · exact exponentOrEnd_ne_integer
  · split
    · exact exponentOrEnd_ne_integer
    · split <;> simp

theorem inRange_of_wholeNumber {negative : Bool} {n : Nat} {i : Int} {s t : List Char}
    (hn : n ≤ maxWord) (h : wholeNumber negative n s = .ok (.integer i, t)) : InRange i := by
  unfold wholeNumber at h
  split at h
  · split at h
    · simp only [Except.ok.injEq, Prod.mk.injEq, Number.integer.injEq] at h
      unfold InRange
      omega
    · exact (doubleOf_ne_integer h).elim
  · simp only [Except.ok.injEq, Prod.mk.injEq, Number.integer.injEq] at h
    unfold InRange
    omega

theorem inRange_of_afterDigits {negative : Bool} {n dropped : Nat} {i : Int} {s t : List Char}
    (hn : n ≤ maxWord) (h : afterDigits negative n dropped s = .ok (.integer i, t)) :
    InRange i := by
  unfold afterDigits at h
  split at h
  · exact (fractionPart_ne_integer h).elim
  · split at h
    · exact (exponentOrEnd_ne_integer h).elim
    · split at h
      · exact inRange_of_wholeNumber hn h
      · exact (doubleOf_ne_integer h).elim

theorem inRange_of_unsignedNumber {negative : Bool} {i : Int} {s t : List Char}
    (h : unsignedNumber negative s = .ok (.integer i, t)) : InRange i := by
  unfold unsignedNumber at h
  split at h
  · simp at h
  · next c s =>
      split at h
      · split at h
        · simp at h
        · exact inRange_of_afterDigits (Nat.zero_le _) h
      · split at h
        · next hdigit =>
            have hc : digitValue c ≤ maxWord :=
              Nat.le_trans (Nat.le_of_lt (Decimal.digitValue_lt hdigit)) (by decide)
            exact inRange_of_afterDigits (significand_le hc 0 s) h
        · simp at h

theorem inRange_of_number {i : Int} {s t : List Char} (h : number s = .ok (.integer i, t)) :
    InRange i := by
  unfold number at h
  split at h
  · exact inRange_of_unsignedNumber h
  · exact inRange_of_unsignedNumber h

end FlexFold.Json
