import FlexFold.Proofs.Json.Grammar
import FlexFold.Proofs.Json.Numbers

/-!
Numbers are taken off the front of a text as they are written. What a reader makes of the digits is
the number that is written, and whatever it takes is one.
-/

namespace FlexFold.Json

open Decimal (Magnitude isDigit digitValue readOnto maxWord)

/-! ### Runs of digits -/

theorem skipDigits_eq (s : List Char) : skipDigits s = s.dropWhile isDigit := by
  induction s with
  | nil => rfl
  | cons c s ih =>
      rw [skipDigits, List.dropWhile_cons, ih]

theorem startsWithDigit_skipDigits (s : List Char) : startsWithDigit (skipDigits s) = false := by
  induction s with
  | nil => rfl
  | cons c s ih =>
      rw [skipDigits]
      split
      · exact ih
      · next hc => simpa [startsWithDigit] using hc

/-- Every text is a run of digits before something else. -/
theorem exists_digits (s : List Char) : ∃ ds tail, s = ds ++ tail ∧ (∀ d ∈ ds, isDigit d) ∧
    startsWithDigit tail = false := by
  refine ⟨s.takeWhile isDigit, skipDigits s, ?_, fun d hd => ?_, startsWithDigit_skipDigits s⟩
  · rw [skipDigits_eq, List.takeWhile_append_dropWhile]
  · exact List.all_eq_true.mp List.all_takeWhile d hd

theorem takeWhile_eq_nil {tail : List Char} (h : startsWithDigit tail = false) :
    tail.takeWhile isDigit = [] := by
  cases tail with
  | nil => rfl
  | cons c tail =>
      have hc : isDigit c = false := h
      rw [List.takeWhile_cons_of_neg (by simp [hc])]

section

variable {ds tail : List Char} (hds : ∀ d ∈ ds, isDigit d) (htail : startsWithDigit tail = false)

include hds htail

theorem takeWhile_digits : (ds ++ tail).takeWhile isDigit = ds := by
  rw [List.takeWhile_append_of_pos hds, takeWhile_eq_nil htail, List.append_nil]

theorem skipDigits_digits : skipDigits (ds ++ tail) = tail := by
  have hsplit : (ds ++ tail).takeWhile isDigit ++ skipDigits (ds ++ tail) = ds ++ tail := by
    rw [skipDigits_eq, List.takeWhile_append_dropWhile]
  rwa [takeWhile_digits hds htail, List.append_cancel_left_eq] at hsplit

/-- A run of digits is read up to its end or up to the first digit that is too many. -/
theorem significand_run (n count : Nat) :
    significand n count (ds ++ tail) =
      ((significand n count ds).1, (significand n count ds).2.1,
        (significand n count ds).2.2 ++ tail) := by
  induction ds generalizing n count with
  | nil =>
      cases tail with
      | nil => rfl
      | cons c tail =>
          have hc : isDigit c = false := htail
          simp [significand, hc]
  | cons d ds ih =>
      rw [List.cons_append, significand, significand]
      split
      · exact ih (fun c hc => hds c (by simp [hc])) _ _
      · rfl

/-- The digits of an exponent are read, unless the exponent becomes too great. -/
theorem exponentDigits_run {n : Nat} (hn : n ≤ maxExponent) :
    if readOnto n ds ≤ maxExponent then exponentDigits n (ds ++ tail) = (some (readOnto n ds), tail)
    else ∃ rest, exponentDigits n (ds ++ tail) = (none, rest) ∧ skipDigits rest = tail := by
  induction ds generalizing n with
  | nil =>
      have hread : readOnto n [] = n := rfl
      rw [hread, if_pos hn]
      cases tail with
      | nil => rfl
      | cons c tail =>
          have hc : isDigit c = false := htail
          simp [exponentDigits, hc]
  | cons d ds ih =>
      have hrest : ∀ c ∈ ds, isDigit c := fun c hc => hds c (by simp [hc])
      have hread : readOnto n (d :: ds) = readOnto (n * 10 + digitValue d) ds := rfl
      rw [List.cons_append, exponentDigits, if_pos (hds d (by simp)), hread]
      by_cases hle : n * 10 + digitValue d ≤ maxExponent
      · rw [if_pos hle]
        exact ih hrest hle
      · have hgreat : ¬ readOnto (n * 10 + digitValue d) ds ≤ maxExponent := fun h =>
          hle (Nat.le_trans (le_readOnto _ ds) h)
        rw [if_neg hle, if_neg hgreat]
        exact ⟨ds ++ tail, rfl, skipDigits_digits hrest htail⟩

end

theorem isDigit_of_mem_significand {ds : List Char} (hds : ∀ d ∈ ds, isDigit d) (n count : Nat) :
    ∀ d ∈ (significand n count ds).2.2, isDigit d := by
  induction ds generalizing n count with
  | nil => exact hds
  | cons d ds ih =>
      rw [significand]
      split
      · exact ih (fun c hc => hds c (by simp [hc])) _ _
      · exact hds

/-! ### What is made of a number -/

/-- A step that takes the text of a number off the front, and fails if there is no value. -/
structure Gives (step : Step Number) (value? : Option Number) (tail : List Char) : Prop where
  ok : ∀ n, value? = some n → step = .ok (n, tail)
  error : value? = none → ∃ fault, step = .error fault

theorem Gives.value_of_ok {step : Step Number} {value? : Option Number} {tail t : List Char}
    {n : Number} (h : Gives step value? tail) (hok : step = .ok (n, t)) :
    value? = some n ∧ t = tail := by
  cases hvalue : value? with
  | none =>
      obtain ⟨fault, hfault⟩ := h.error hvalue
      rw [hok] at hfault
      cases hfault
  | some m =>
      have hm := h.ok m hvalue
      rw [hok] at hm
      cases hm
      exact ⟨rfl, rfl⟩

theorem gives_doubleOf (negative : Bool) (n : Nat) (e : Int) (tail : List Char) :
    Gives (doubleOf negative n e tail) (double? negative n e) tail := by
  unfold doubleOf double?
  cases Magnitude.ofDecimal n e with
  | none => exact ⟨by simp, fun _ => ⟨_, rfl⟩⟩
  | some f => exact ⟨by simp, by simp⟩

theorem gives_wholeNumber (negative : Bool) (n : Nat) (tail : List Char) :
    Gives (wholeNumber negative n tail) (whole? negative n) tail := by
  unfold wholeNumber whole?
  split
  · split
    · exact ⟨by simp, by simp⟩
    · exact gives_doubleOf ..
  · exact ⟨by simp, by simp⟩

theorem Exponent.letter_eq (x : Exponent) : x.letter = 'e' ∨ x.letter = 'E' := by
  simpa using x.letter_mem

theorem exponentText_some (x : Exponent) :
    exponentText (some x) = x.letter :: (x.sign ++ x.digits) := rfl

theorem Exponent.exists_digits (x : Exponent) :
    ∃ d ds, x.digits = d :: ds ∧ isDigit d ∧ ∀ c ∈ ds, isDigit c := by
  cases hdigits : x.digits with
  | nil => exact (x.digits_ne_nil hdigits).elim
  | cons d ds =>
      have hall := x.isDigit_digits
      rw [hdigits, List.forall_mem_cons] at hall
      exact ⟨d, ds, rfl, hall⟩

theorem exponentSign_append (x : Exponent) (s : List Char) :
    exponentSign (x.sign ++ (x.digits ++ s)) = (x.isNegative, x.digits ++ s) := by
  obtain ⟨d, ds, hdigits, hd, -⟩ := x.exists_digits
  have hsign := x.sign_mem
  simp only [List.mem_cons, List.not_mem_nil, or_false] at hsign
  rcases hsign with h | h | h
  · have hne : d ≠ '+' ∧ d ≠ '-' := by
      constructor <;> rintro rfl <;> cases hd
    rw [Exponent.isNegative, h, hdigits, List.nil_append, List.cons_append, exponentSign]
    · rfl
    · intro t ht
      exact hne.1 (List.cons.inj ht).1
    · intro t ht
      exact hne.2 (List.cons.inj ht).1
  · rw [Exponent.isNegative, h]
    rfl
  · rw [Exponent.isNegative, h]
    rfl

theorem gives_exponentPart (negative : Bool) (n : Nat) (shift : Int) (x : Exponent)
    {tail : List Char} (htail : startsWithDigit tail = false) :
    Gives (exponentPart negative n shift (x.sign ++ (x.digits ++ tail)))
      (scaled? negative n shift (some x)) tail := by
  obtain ⟨d, ds, hdigits, hd, hds⟩ := x.exists_digits
  have hsmall : digitValue d ≤ maxExponent :=
    Nat.le_trans (Nat.le_of_lt (Decimal.digitValue_lt hd)) (by decide)
  have hread : x.magnitude = readOnto (digitValue d) ds := by
    rw [Exponent.magnitude, hdigits, readOnto, List.foldl_cons, Nat.zero_mul, Nat.zero_add]
    rfl
  have hrun := exponentDigits_run hds htail hsmall
  rw [exponentPart, exponentSign_append, hdigits, List.cons_append]
  simp only [hd, if_true, scaled?, hread]
  split at hrun
  · next hle =>
      rw [if_pos hle, hrun]
      exact gives_doubleOf ..
  -- No exponent is left to compute with, so the digits and the sign alone decide.
  · next hgreat =>
      obtain ⟨rest, hrest, hskip⟩ := hrun
      rw [if_neg hgreat, hrest]
      simp only [hskip]
      split
      · exact ⟨by simp, fun _ => ⟨_, rfl⟩⟩
      · exact ⟨by simp, by simp⟩

/-- What may follow a number that ends with an exponent or without one. -/
structure StopsExponent (x : Option Exponent) (tail : List Char) : Prop where
  digit : startsWithDigit tail = false
  letter : x = none → startsWithExponent tail = false

theorem gives_exponentOrEnd (negative : Bool) (n : Nat) (shift : Int) {x : Option Exponent}
    {tail : List Char} (h : StopsExponent x tail) :
    Gives (exponentOrEnd negative n shift (exponentText x ++ tail))
      (scaled? negative n shift x) tail := by
  cases x with
  | none =>
      have hletter := h.letter rfl
      cases tail with
      | nil => exact gives_doubleOf ..
      | cons c tail =>
          have hne : ¬ (c = 'e' ∨ c = 'E') := by simpa [startsWithExponent] using hletter
          simp only [exponentText, Option.map_none, Option.getD_none, List.nil_append,
            exponentOrEnd, if_neg hne]
          exact gives_doubleOf ..
  | some x =>
      simp only [exponentText_some, List.cons_append, List.append_assoc, exponentOrEnd,
        if_pos x.letter_eq]
      exact gives_exponentPart negative n shift x h.digit

theorem startsWithDigit_exponentText {x : Option Exponent} {tail : List Char}
    (h : StopsExponent x tail) : startsWithDigit (exponentText x ++ tail) = false := by
  cases x with
  | none => exact h.digit
  | some x =>
      rw [exponentText_some]
      rcases x.letter_eq with h | h <;> rw [h] <;> rfl

/-- All digits after the point are taken, also those that are dropped. -/
theorem fractionPart_run (negative : Bool) (n : Nat) (shift : Int) {ds rest : List Char}
    (hne : ds ≠ []) (hds : ∀ d ∈ ds, isDigit d) (hrest : startsWithDigit rest = false) :
    fractionPart negative n shift (ds ++ rest) =
      exponentOrEnd negative (significand n 0 ds).1 (shift - (significand n 0 ds).2.1) rest := by
  have hmore := isDigit_of_mem_significand hds n 0
  have hstart : startsWithDigit (ds ++ rest) = true := by
    obtain ⟨d, ds, rfl⟩ := List.exists_cons_of_ne_nil hne
    exact hds d (by simp)
  rw [fractionPart, significand_run hds hrest]
  generalize significand n 0 ds = run at hmore ⊢
  obtain ⟨m, count, more⟩ := run
  dsimp only at hmore ⊢
  rw [skipDigits_digits hmore hrest, hstart]
  cases more with
  | nil => simp [hrest]
  | cons d more =>
      have hd : startsWithDigit (d :: more ++ rest) = true := hmore d (by simp)
      simp only [hd, if_true]

theorem fractionPart_of_no_digit (negative : Bool) (n : Nat) (shift : Int) {s : List Char}
    (h : startsWithDigit s = false) : ∃ fault, fractionPart negative n shift s = .error fault := by
  have hrun := @significand_run [] s (by simp) h n 0
  rw [List.nil_append, significand, List.nil_append] at hrun
  rw [fractionPart, hrun]
  simp only [h, Bool.false_eq_true, if_false]
  split <;> exact ⟨_, rfl⟩

theorem gives_fractionPart (negative : Bool) (n : Nat) (shift : Int) {ds : List Char}
    (hne : ds ≠ []) (hds : ∀ d ∈ ds, isDigit d) {x : Option Exponent} {tail : List Char}
    (h : StopsExponent x tail) :
    Gives (fractionPart negative n shift (ds ++ (exponentText x ++ tail)))
      (scaled? negative (significand n 0 ds).1 (shift - (significand n 0 ds).2.1) x) tail := by
  rw [fractionPart_run negative n shift hne hds (startsWithDigit_exponentText h)]
  exact gives_exponentOrEnd _ _ _ h

/-- What may follow a number that is written in some way. -/
structure Stops (fraction : List Char) (x : Option Exponent) (tail : List Char) : Prop
    extends StopsExponent x tail where
  point : fraction = [] → x = none → tail.head? ≠ some '.'

theorem EndsNumber.stops {tail : List Char} (h : EndsNumber tail) (fraction : List Char)
    (x : Option Exponent) : Stops fraction x tail where
  digit := h.digit
  letter _ := h.exponent
  point _ _ := h.point

/-- The number that is made of the digits before the point, once they are read. -/
def finished? (negative : Bool) (n dropped : Nat) (fraction : List Char) (x : Option Exponent) :
    Option Number :=
  if dropped = 0 ∧ fraction = [] ∧ x.isNone then whole? negative n
  else
    scaled? negative (significand n 0 fraction).1 (dropped - (significand n 0 fraction).2.1) x

theorem gives_afterDigits (negative : Bool) (n dropped : Nat) {fraction : List Char}
    (hfraction : ∀ d ∈ fraction, isDigit d) {x : Option Exponent} {tail : List Char}
    (h : Stops fraction x tail) :
    Gives (afterDigits negative n dropped (fractionText fraction ++ (exponentText x ++ tail)))
      (finished? negative n dropped fraction x) tail := by
  by_cases hpoint : fraction = []
  · subst hpoint
    have hempty : significand n 0 [] = (n, 0, []) := rfl
    simp only [fractionText, if_true, List.nil_append, finished?, hempty, true_and]
    cases x with
    | none =>
        have hletter := h.letter rfl
        have hhead := h.point rfl rfl
        simp only [exponentText, Option.map_none, Option.getD_none, List.nil_append,
          Option.isNone_none, and_true]
        unfold afterDigits
        split
        · exact (hhead rfl).elim
        · rw [if_neg (by simp [hletter])]
          split
          · exact gives_wholeNumber ..
          · exact gives_doubleOf ..
    | some x =>
        have hstart : startsWithExponent (exponentText (some x) ++ tail) = true := by
          rw [exponentText_some]
          rcases x.letter_eq with h | h <;> rw [h] <;> rfl
        have hgives := gives_exponentOrEnd negative n dropped h.toStopsExponent
        unfold afterDigits
        split
        · next t ht =>
            rw [ht] at hstart
            cases hstart
        · rw [if_pos hstart]
          simpa using hgives
  · have hgives := gives_fractionPart negative n dropped hpoint hfraction h.toStopsExponent
    simp only [fractionText, if_neg hpoint, List.cons_append, finished?]
    rw [if_neg (by simp [hpoint])]
    exact hgives

theorem Numeral.value?_eq (x : Numeral) :
    x.value? = finished? x.negative (significand 0 0 x.whole).1
      (significand 0 0 x.whole).2.2.length x.fraction x.exponent := by
  simp only [value?, finished?, List.length_eq_zero_iff]

/-- The digits that were taken before are only counted. -/
theorem significand_congr (n count count' : Nat) (ds : List Char) :
    (significand n count ds).1 = (significand n count' ds).1 ∧
      (significand n count ds).2.2 = (significand n count' ds).2.2 := by
  induction ds generalizing n count count' with
  | nil => exact ⟨rfl, rfl⟩
  | cons c ds ih =>
      rw [significand, significand]
      split
      · exact ih _ _ _
      · exact ⟨rfl, rfl⟩

theorem significand_cons {d : Char} (hd : isDigit d) (ds : List Char) :
    (significand 0 0 (d :: ds)).1 = (significand (digitValue d) 0 ds).1 ∧
      (significand 0 0 (d :: ds)).2.2 = (significand (digitValue d) 0 ds).2.2 := by
  have hsmall : 0 * 10 + digitValue d ≤ maxWord := by
    have := Decimal.digitValue_lt hd
    have hmax : 10 ≤ maxWord := by decide
    omega
  rw [significand, if_pos ⟨hd, hsmall⟩, Nat.zero_mul, Nat.zero_add]
  exact significand_congr _ _ _ ds

theorem startsWithDigit_fractionText {fraction : List Char} {x : Option Exponent}
    {tail : List Char} (h : Stops fraction x tail) :
    startsWithDigit (fractionText fraction ++ (exponentText x ++ tail)) = false := by
  unfold fractionText
  split
  · exact startsWithDigit_exponentText h.toStopsExponent
  · rfl

theorem gives_unsignedNumber (x : Numeral) {tail : List Char}
    (h : Stops x.fraction x.exponent tail) :
    Gives (unsignedNumber x.negative
        (x.whole ++ (fractionText x.fraction ++ (exponentText x.exponent ++ tail))))
      x.value? tail := by
  have hrest := startsWithDigit_fractionText h
  obtain ⟨d, ds, hwhole⟩ := List.exists_cons_of_ne_nil x.whole_ne_nil
  have hall := x.isDigit_whole
  have hzero := x.whole_eq_zero
  rw [x.value?_eq]
  rw [hwhole] at hall hzero ⊢
  obtain ⟨hd, hds⟩ := List.forall_mem_cons.mp hall
  rw [(significand_cons hd ds).1, (significand_cons hd ds).2, List.cons_append, unsignedNumber]
  by_cases hdzero : d = '0'
  · subst hdzero
    obtain rfl : ds = [] := (List.cons.inj (hzero rfl)).2
    rw [if_pos rfl, List.nil_append, hrest]
    exact gives_afterDigits x.negative 0 0 x.isDigit_fraction h
  · rw [if_neg hdzero, if_pos hd, significand_run hds hrest]
    have hmore := isDigit_of_mem_significand hds (digitValue d) 0
    simp only [takeWhile_digits hmore hrest, skipDigits_digits hmore hrest]
    exact gives_afterDigits _ _ _ x.isDigit_fraction h

/-- A number that is written on the front of a text is read as what it is. -/
theorem gives_number (x : Numeral) {tail : List Char} (h : Stops x.fraction x.exponent tail) :
    Gives (number (x.text ++ tail)) x.value? tail := by
  have hgives := gives_unsignedNumber x h
  simp only [Numeral.text, List.append_assoc]
  cases hnegative : x.negative with
  | true =>
      rw [hnegative] at hgives
      exact hgives
  | false =>
      rw [hnegative] at hgives
      obtain ⟨d, ds, hwhole⟩ := List.exists_cons_of_ne_nil x.whole_ne_nil
      have hd : isDigit d := x.isDigit_whole d (by simp [hwhole])
      rw [hwhole] at hgives ⊢
      have hne : d ≠ '-' := by
        rintro rfl
        cases hd
      simp only [Bool.false_eq_true, if_false, List.nil_append, List.cons_append] at hgives ⊢
      unfold number
      split
      · next t ht => exact (hne (List.cons.inj ht).1).elim
      · exact hgives

/-! ### What is taken -/

theorem exists_exponent {negative : Bool} {n : Nat} {shift : Int} {letter : Char}
    {s : List Char} {r : Number × List Char} (hletter : letter ∈ ['e', 'E'])
    (h : exponentPart negative n shift s = .ok r) :
    ∃ (x : Exponent) (tail : List Char), letter :: s = x.text ++ tail ∧
      startsWithDigit tail = false := by
  have hsplit : ∃ sign ∈ [[], ['+'], ['-']], s = sign ++ (exponentSign s).2 := by
    unfold exponentSign
    split
    · exact ⟨['+'], by simp, rfl⟩
    · exact ⟨['-'], by simp, rfl⟩
    · exact ⟨[], by simp, rfl⟩
  obtain ⟨sign, hsign, hs⟩ := hsplit
  have hdigit : startsWithDigit (exponentSign s).2 = true := by
    unfold exponentPart at h
    split at h
    next below s₁ hs₁ =>
      rw [hs₁]
      split at h
      · cases h
      · split at h
        · assumption
        · cases h
  obtain ⟨ds, tail, hrun, hds, htail⟩ := exists_digits (exponentSign s).2
  have hne : ds ≠ [] := by
    rintro rfl
    rw [hrun, List.nil_append, htail] at hdigit
    cases hdigit
  refine ⟨⟨letter, sign, ds, hletter, hsign, hne, hds⟩, tail, ?_, htail⟩
  rw [hs, hrun]
  simp [Exponent.text]

theorem exists_exponentText {negative : Bool} {n : Nat} {shift : Int} {s : List Char}
    {r : Number × List Char} (hs : startsWithDigit s = false)
    (h : exponentOrEnd negative n shift s = .ok r) :
    ∃ x tail, s = exponentText x ++ tail ∧ StopsExponent x tail := by
  cases s with
  | nil => exact ⟨none, [], rfl, rfl, fun _ => rfl⟩
  | cons c s =>
      rw [exponentOrEnd] at h
      split at h
      · next hletter =>
          obtain ⟨x, tail, hx, htail⟩ := exists_exponent (by simpa using hletter) h
          exact ⟨some x, tail, hx, htail, by simp⟩
      · next hletter =>
          exact ⟨none, c :: s, rfl, hs, fun _ => by simpa [startsWithExponent] using hletter⟩

theorem exists_fraction {negative : Bool} {n : Nat} {shift : Int} {s : List Char}
    {r : Number × List Char} (h : fractionPart negative n shift s = .ok r) :
    ∃ ds x tail, s = ds ++ (exponentText x ++ tail) ∧ ds ≠ [] ∧ (∀ d ∈ ds, isDigit d) ∧
      StopsExponent x tail := by
  obtain ⟨ds, rest, rfl, hds, hrest⟩ := exists_digits s
  have hne : ds ≠ [] := by
    rintro rfl
    obtain ⟨fault, hfault⟩ := fractionPart_of_no_digit negative n shift hrest
    rw [List.nil_append, hfault] at h
    cases h
  rw [fractionPart_run negative n shift hne hds hrest] at h
  obtain ⟨x, tail, rfl, htail⟩ := exists_exponentText hrest h
  exact ⟨ds, x, tail, rfl, hne, hds, htail⟩

/-- What follows the digits before the point. -/
theorem exists_fractionText {negative : Bool} {n dropped : Nat} {s : List Char}
    {r : Number × List Char} (hs : startsWithDigit s = false)
    (h : afterDigits negative n dropped s = .ok r) :
    ∃ fraction x tail, s = fractionText fraction ++ (exponentText x ++ tail) ∧
      (∀ d ∈ fraction, isDigit d) ∧ Stops fraction x tail := by
  unfold afterDigits at h
  split at h
  · obtain ⟨ds, x, tail, rfl, hne, hds, htail⟩ := exists_fraction h
    exact ⟨ds, x, tail, by simp [fractionText, hne], hds, htail, fun hnil => (hne hnil).elim⟩
  · next hpoint =>
      split at h
      · next hletter =>
          obtain ⟨x, tail, rfl, htail⟩ := exists_exponentText hs h
          refine ⟨[], x, tail, rfl, by simp, htail, fun _ hx => ?_⟩
          rw [hx] at hletter
          have hnone := htail.letter hx
          exact absurd hletter (by simpa [exponentText] using hnone)
      · next hletter =>
          refine ⟨[], none, s, rfl, by simp, ⟨hs, fun _ => by simpa using hletter⟩, fun _ _ => ?_⟩
          intro hhead
          obtain ⟨t, ht⟩ := List.head?_eq_some_iff.mp hhead
          exact hpoint t ht

theorem exists_unsigned {negative : Bool} {s : List Char} {r : Number × List Char}
    (h : unsignedNumber negative s = .ok r) :
    ∃ (x : Numeral) (tail : List Char), x.negative = negative ∧
      s = x.whole ++ (fractionText x.fraction ++ (exponentText x.exponent ++ tail)) ∧
      Stops x.fraction x.exponent tail := by
  cases s with
  | nil => cases h
  | cons c s =>
      rw [unsignedNumber] at h
      split at h
      · next hc =>
          split at h
          · cases h
          · next hdigit =>
              obtain ⟨fraction, x, tail, rfl, hfraction, htail⟩ :=
                exists_fractionText (by simpa using hdigit) h
              refine ⟨⟨negative, [c], fraction, x, by simp, ?_, ?_, hfraction⟩, tail, rfl, rfl,
                htail⟩
              · intro d hd
                rw [List.mem_singleton.mp hd, hc]
                rfl
              · rw [hc]
                simp
      · next hc =>
          split at h
          · next hdigit =>
              obtain ⟨ds, rest, rfl, hds, hrest⟩ := exists_digits s
              have hmore := isDigit_of_mem_significand hds (digitValue c) 0
              rw [significand_run hds hrest] at h
              simp only [takeWhile_digits hmore hrest, skipDigits_digits hmore hrest] at h
              obtain ⟨fraction, x, tail, rfl, hfraction, htail⟩ := exists_fractionText hrest h
              refine ⟨⟨negative, c :: ds, fraction, x, by simp, ?_, ?_, hfraction⟩, tail, rfl, rfl,
                htail⟩
              · exact List.forall_mem_cons.mpr ⟨hdigit, hds⟩
              · intro hzero
                exact (hc (Option.some.inj hzero)).elim
          · cases h

/-- Whatever is taken for a number is one, and it is read as what it is. -/
theorem exists_numeral {s t : List Char} {n : Number} (h : number s = .ok (n, t)) :
    ∃ x : Numeral, s = x.text ++ t ∧ x.value? = some n := by
  have hshape : ∃ (x : Numeral) (tail : List Char), s = x.text ++ tail ∧
      Stops x.fraction x.exponent tail := by
    unfold number at h
    split at h
    · obtain ⟨x, tail, hnegative, rfl, htail⟩ := exists_unsigned h
      exact ⟨x, tail, by simp [Numeral.text, hnegative], htail⟩
    · obtain ⟨x, tail, hnegative, rfl, htail⟩ := exists_unsigned h
      exact ⟨x, tail, by simp [Numeral.text, hnegative], htail⟩
  obtain ⟨x, tail, rfl, htail⟩ := hshape
  obtain ⟨hvalue, rfl⟩ := (gives_number x htail).value_of_ok h
  exact ⟨x, rfl, hvalue⟩

end FlexFold.Json
