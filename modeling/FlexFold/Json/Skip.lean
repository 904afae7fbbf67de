import FlexFold.Json.Reader

/-!
Skipping a value that nobody asked for. It has to be well formed, but its numbers may have any
size, its strings any escapes, and its containers may be nested to any depth.
-/

namespace FlexFold.Json

open Decimal (isDigit)

/-- The rest of a string whose opening quote is read. -/
def skipString (s : List Char) : Except Fault (List Char) :=
  match s with
  | [] => .error (.here .endOfString [])
  | c :: t =>
      if c = '"' then .ok t
      else if c = '\\' then
        match t with
        | [] => .error (.here .endOfString [])
        | d :: u =>
            if d = 'u' then
              match _h : hexQuad u with
              | .error e => .error e
              | .ok (_, v) => skipString v
            else if (simpleEscape? d).isSome then skipString u
            else .error (.next .invalidEscape t)
      else if isControl c then .error (.here .controlCharacter s)
      else skipString t
termination_by s.length
decreasing_by
  · have := length_hexQuad _h
    simp only [List.length_cons]
    omega
  · simp only [List.length_cons]
    omega
  · simp

theorem length_skipString {s t : List Char} (h : skipString s = .ok t) :
    t.length < s.length := by
  fun_induction skipString s with
  | case1 => simp at h
  | case2 u =>
      simp only [Except.ok.injEq] at h
      simp [h]
  | case3 => simp at h
  | case4 => simp at h
  | case5 u n v hq _ ih =>
      have := ih h
      have := length_hexQuad hq
      simp only [List.length_cons]
      omega
  | case6 d u _ _ _ ih =>
      have := ih h
      simp only [List.length_cons]
      omega
  | case7 => simp at h
  | case8 => simp at h
  | case9 c u _ _ _ ih => exact Nat.lt_succ_of_lt (ih h)

/-- An exponent. Its letter is read already. -/
def skipExponent (s : List Char) : Except Fault (List Char) :=
  match (exponentSign s).2 with
  | [] => .error (.here .invalidNumber [])
  | c :: t => if isDigit c then .ok (skipDigits t) else .error (.next .invalidNumber (c :: t))

theorem length_skipExponent {s t : List Char} (h : skipExponent s = .ok t) :
    t.length < s.length := by
  unfold skipExponent at h
  have hs := length_exponentSign_le s
  split at h
  · simp at h
  · next c u hc =>
      rw [hc, List.length_cons] at hs
      split at h
      · simp only [Except.ok.injEq] at h
        have := length_skipDigits_le u
        rw [← h]
        omega
      · simp at h

/-- What follows the digits of a number: an exponent or nothing. -/
def skipExponentOrEnd (s : List Char) : Except Fault (List Char) :=
  if startsWithExponent s then skipExponent s.tail else .ok s

theorem length_skipExponentOrEnd {s t : List Char} (h : skipExponentOrEnd s = .ok t) :
    t.length ≤ s.length := by
  unfold skipExponentOrEnd at h
  split at h
  · have := length_skipExponent h
    rw [List.length_tail] at this
    omega
  · simp only [Except.ok.injEq] at h
    exact h ▸ Nat.le_refl _

/-- What follows the digits before the point. -/
def skipFraction (s : List Char) : Except Fault (List Char) :=
  match s with
  | '.' :: t =>
      if startsWithDigit t then skipExponentOrEnd (skipDigits t)
      else .error (.next .invalidNumber t)
  | _ => skipExponentOrEnd s

theorem length_skipFraction {s t : List Char} (h : skipFraction s = .ok t) :
    t.length ≤ s.length := by
  unfold skipFraction at h
  split at h
  · next u =>
      split at h
      · have := length_skipExponentOrEnd h
        have := length_skipDigits_le u
        rw [List.length_cons]
        omega
      · simp at h
  · exact length_skipExponentOrEnd h

def skipUnsigned (s : List Char) : Except Fault (List Char) :=
  match s with
  | [] => .error (.here .invalidNumber [])
  | c :: t =>
      if c = '0' then
        if startsWithDigit t then .error (.next .invalidNumber t) else skipFraction t
      else if isDigit c then skipFraction (skipDigits t)
      else .error (.next .invalidNumber s)

theorem length_skipUnsigned {s t : List Char} (h : skipUnsigned s = .ok t) :
    t.length < s.length := by
  unfold skipUnsigned at h
  split at h
  · simp at h
  · next c u =>
      split at h
      · split at h
        · simp at h
        · exact Nat.lt_succ_of_le (length_skipFraction h)
      · split at h
        · have := length_skipFraction h
          have := length_skipDigits_le u
          rw [List.length_cons]
          omega
        · simp at h

inductive Container where
  | list
  | object
deriving DecidableEq, Repr

def Container.closing : Container → Char
  | .list => ']'
  | .object => '\x7d'

/-- A text that ends within a container. -/
def Container.endOf : Container → Cause
  | .list => .endOfList
  | .object => .endOfObject

/-- A part of a container that no comma or bracket follows. -/
def Container.expectedEnd : Container → Cause
  | .list => .expectedListCommaOrEnd
  | .object => .expectedObjectCommaOrEnd

def skipKey (s : List Char) : Except Fault (List Char) :=
  match skipSpaces s with
  | [] => .error (.here .endOfObject [])
  | c :: t =>
      if c = '"' then
        match skipString t with
        | .error e => .error e
        | .ok u => Reader.colon u
      else .error (.next .keyMustBeString (c :: t))

theorem length_skipKey {s t : List Char} (h : skipKey s = .ok t) : t.length < s.length := by
  unfold skipKey at h
  have hs := length_skipSpaces_le s
  split at h
  · simp at h
  · next c u hc =>
      rw [hc, List.length_cons] at hs
      split at h
      · split at h
        · simp at h
        · next hk =>
            have := length_skipString hk
            have := Reader.length_colon h
            omega
      · simp at h

/-- A scalar, of which `c` is the first character. -/
def skipScalar (c : Char) (t : List Char) : Except Fault (List Char) :=
  if c = 'n' then literal ['u', 'l', 'l'] t
  else if c = 't' then literal ['r', 'u', 'e'] t
  else if c = 'f' then literal ['a', 'l', 's', 'e'] t
  else if c = '-' then skipUnsigned t
  else if isDigit c then skipUnsigned (c :: t)
  else if c = '"' then skipString t
  else .error (.next .expectedValue (c :: t))

theorem length_skipScalar {c : Char} {t u : List Char} (h : skipScalar c t = .ok u) :
    u.length ≤ t.length := by
  unfold skipScalar at h
  split at h
  · exact length_literal h
  split at h
  · exact length_literal h
  split at h
  · exact length_literal h
  split at h
  · exact Nat.le_of_lt (length_skipUnsigned h)
  split at h
  · exact Nat.le_of_lt_succ (length_skipUnsigned h)
  split at h
  · exact Nat.le_of_lt (length_skipString h)
  · simp at h

/-- Skip a scalar, or the bracket that opens a container. -/
def skipStart (s : List Char) : Step (Option Container) :=
  match skipSpaces s with
  | [] => .error (.here .endOfValue [])
  | c :: t =>
      if c = '[' then .ok (some .list, t)
      else if c = '\x7b' then .ok (some .object, t)
      else
        match skipScalar c t with
        | .error e => .error e
        | .ok u => .ok (none, u)

theorem length_skipStart {s t : List Char} {opened : Option Container}
    (h : skipStart s = .ok (opened, t)) : t.length < s.length := by
  unfold skipStart at h
  have hs := length_skipSpaces_le s
  split at h
  · simp at h
  · next c u hc =>
      rw [hc, List.length_cons] at hs
      split at h
      · simp only [Except.ok.injEq, Prod.mk.injEq] at h
        rw [← h.2]
        omega
      split at h
      · simp only [Except.ok.injEq, Prod.mk.injEq] at h
        rw [← h.2]
        omega
      split at h
      · simp at h
      · next hu =>
          simp only [Except.ok.injEq, Prod.mk.injEq] at h
          have := length_skipScalar hu
          rw [← h.2]
          omega

/-- Go to the next value in an open container. A comma comes first if a part was read before. -/
def nextPart (afterPart : Bool) (container : Container) (s : List Char) :
    Except Fault Reader.Next :=
  match skipSpaces s with
  | [] => .error (.here container.endOf [])
  | c :: t =>
      if c = container.closing then .ok (.close t)
      else if afterPart ∧ c ≠ ',' then .error (.next container.expectedEnd (c :: t))
      else
        let u := if afterPart then t else c :: t
        match container with
        | .list => .ok (.part u)
        | .object =>
            match skipKey u with
            | .error e => .error e
            | .ok v => .ok (.part v)

theorem length_nextPart_part {afterPart : Bool} {container : Container} {s t : List Char}
    (h : nextPart afterPart container s = .ok (.part t)) : t.length ≤ s.length := by
  unfold nextPart at h
  have hs := length_skipSpaces_le s
  split at h
  · simp at h
  · next c u hc =>
      rw [hc, List.length_cons] at hs
      have hu : (if afterPart then u else c :: u).length ≤ s.length := by
        split
        · omega
        · rw [List.length_cons]
          exact hs
      split at h
      · simp at h
      split at h
      · simp at h
      dsimp only at h
      split at h
      · simp only [Except.ok.injEq, Reader.Next.part.injEq] at h
        exact h ▸ hu
      · split at h
        · simp at h
        · next hk =>
            simp only [Except.ok.injEq, Reader.Next.part.injEq] at h
            have := length_skipKey hk
            rw [← h]
            omega

theorem length_nextPart_close {afterPart : Bool} {container : Container} {s t : List Char}
    (h : nextPart afterPart container s = .ok (.close t)) : t.length < s.length := by
  unfold nextPart at h
  have hs := length_skipSpaces_le s
  split at h
  · simp at h
  · next c u hc =>
      rw [hc, List.length_cons] at hs
      split at h
      · simp only [Except.ok.injEq, Reader.Next.close.injEq] at h
        rw [← h]
        omega
      split at h
      · simp at h
      dsimp only at h
      split at h
      · simp at h
      · split at h <;> simp at h

/-- Skip what the open containers still need. -/
def skipOpen (afterPart : Bool) (stack : List Container) (s : List Char) :
    Except Fault (List Char) :=
  match stack with
  | [] => .ok s
  | container :: outer =>
      match _hn : nextPart afterPart container s with
      | .error e => .error e
      | .ok (.close t) => skipOpen true outer t
      | .ok (.part u) =>
          match _hs : skipStart u with
          | .error e => .error e
          | .ok (none, t) => skipOpen true (container :: outer) t
          | .ok (some inner, t) => skipOpen false (inner :: container :: outer) t
termination_by s.length
decreasing_by
  · exact length_nextPart_close _hn
  · have := length_nextPart_part _hn
    have := length_skipStart _hs
    omega
  · have := length_nextPart_part _hn
    have := length_skipStart _hs
    omega

theorem length_skipOpen {afterPart : Bool} {stack : List Container} {s t : List Char}
    (h : skipOpen afterPart stack s = .ok t) : t.length ≤ s.length := by
  fun_induction skipOpen afterPart stack s with
  | case1 =>
      simp only [Except.ok.injEq] at h
      exact h ▸ Nat.le_refl _
  | case2 => simp at h
  | case3 afterPart s container outer u hn ih =>
      have := ih h
      have := length_nextPart_close hn
      omega
  | case4 => simp at h
  | case5 afterPart s container outer u hn v hs ih =>
      have := ih h
      have := length_nextPart_part hn
      have := length_skipStart hs
      omega
  | case6 afterPart s container outer u hn inner v hs ih =>
      have := ih h
      have := length_nextPart_part hn
      have := length_skipStart hs
      omega

def Reader.skip : Reader Unit where
  run s := match skipStart s with
    | .error e => .error e
    | .ok (none, t) => .ok ((), t)
    | .ok (some container, t) =>
        match skipOpen false [container] t with
        | .error e => .error e
        | .ok u => .ok ((), u)
  consumes := by
    intro s a t h
    split at h
    · simp at h
    · next hs =>
        simp only [Except.ok.injEq, Prod.mk.injEq, true_and] at h
        exact h ▸ length_skipStart hs
    · next hs =>
        have := length_skipStart hs
        split at h
        · simp at h
        · next ho =>
            simp only [Except.ok.injEq, Prod.mk.injEq, true_and] at h
            have := length_skipOpen ho
            rw [← h]
            omega

end FlexFold.Json
