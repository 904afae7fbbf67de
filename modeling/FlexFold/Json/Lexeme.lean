import FlexFold.Json.Fault

/-!
The smallest parts of a JSON text: blanks, literals, strings and numbers. Each function takes
its part off the front of a list of characters and returns what is left, which is shorter.
-/

namespace FlexFold.Json

open Decimal (Binary64 Magnitude isDigit digitValue maxWord)

/-- What a step returns: what it read and the characters that are left. -/
abbrev Step (α : Type) := Except Fault (α × List Char)

/-! ### Blanks and literals -/

/-- JSON knows four blank characters. -/
def isSpace (c : Char) : Bool := c == ' ' || c == '\n' || c == '\t' || c == '\r'

def skipSpaces : List Char → List Char
  | [] => []
  | c :: s => if isSpace c then skipSpaces s else c :: s

theorem length_skipSpaces_le (s : List Char) : (skipSpaces s).length ≤ s.length := by
  induction s with
  | nil => simp [skipSpaces]
  | cons c s ih =>
      rw [skipSpaces]
      split
      · exact Nat.le_succ_of_le ih
      · exact Nat.le_refl _

/-- Take the remaining letters of a literal. -/
def literal : List Char → List Char → Except Fault (List Char)
  | [], s => .ok s
  | _ :: _, [] => .error (.here .endOfValue [])
  | e :: expected, c :: s =>
      if c = e then literal expected s else .error (.next .expectedIdent (c :: s))

theorem length_literal {expected s t : List Char} (h : literal expected s = .ok t) :
    t.length ≤ s.length := by
  induction expected generalizing s with
  | nil => simp only [literal, Except.ok.injEq] at h; exact h ▸ Nat.le_refl _
  | cons e expected ih =>
      cases s with
      | nil => simp [literal] at h
      | cons c s =>
          rw [literal] at h
          split at h
          · exact Nat.le_succ_of_le (ih h)
          · simp at h

/-! ### Strings -/

/-- The number that a hexadecimal digit stands for. -/
def hexValue? (c : Char) : Option Nat :=
  if '0' ≤ c ∧ c ≤ '9' then some (c.toNat - 48)
  else if 'a' ≤ c ∧ c ≤ 'f' then some (c.toNat - 87)
  else if 'A' ≤ c ∧ c ≤ 'F' then some (c.toNat - 55)
  else none

/-- Four bytes that are no hexadecimal digits, or fewer bytes. -/
def quadFault (s : List Char) : Fault :=
  if Text.byteLength s < 4 then .here .endOfString []
  else ⟨.invalidEscape, Text.byteLength s - 4⟩

def hexQuad (s : List Char) : Step Nat :=
  match s with
  | a :: b :: c :: d :: t =>
      match hexValue? a, hexValue? b, hexValue? c, hexValue? d with
      | some a, some b, some c, some d => .ok (((a * 16 + b) * 16 + c) * 16 + d, t)
      | _, _, _, _ => .error (quadFault s)
  | _ => .error (quadFault s)

theorem length_hexQuad {s t : List Char} {n : Nat} (h : hexQuad s = .ok (n, t)) :
    t.length < s.length := by
  unfold hexQuad at h
  split at h
  · split at h
    · simp only [Except.ok.injEq, Prod.mk.injEq] at h
      simp only [← h.2, List.length_cons]
      omega
    · simp at h
  · simp at h

/-- Whether a number is the first half of a pair of surrogates. -/
def isLeading (n : Nat) : Bool := 0xD800 ≤ n && n ≤ 0xDBFF

/-- Whether a number is the second half of a pair of surrogates. -/
def isTrailing (n : Nat) : Bool := 0xDC00 ≤ n && n ≤ 0xDFFF

/-- The second escape of a character whose first one was the surrogate `n`. -/
def trailingEscape (n : Nat) (s : List Char) : Step Char :=
  match s with
  | [] => .error (.here .endOfString [])
  | c :: s₁ =>
      if c = '\\' then
        match s₁ with
        | [] => .error (.here .endOfString [])
        | u :: s₂ =>
            if u = 'u' then
              match hexQuad s₂ with
              | .error e => .error e
              | .ok (m, t) =>
                  if isTrailing m then
                    .ok (Char.ofNat ((n - 0xD800) * 0x400 + (m - 0xDC00) + 0x10000), t)
                  else .error (.here .loneSurrogate t)
            else .error (.next .endOfHexEscape s₁)
      else .error (.next .endOfHexEscape s)

theorem length_trailingEscape {s t : List Char} {n : Nat} {c : Char}
    (h : trailingEscape n s = .ok (c, t)) : t.length < s.length := by
  unfold trailingEscape at h
  split at h
  · simp at h
  · split at h
    · split at h
      · simp at h
      · split at h
        · split at h
          · simp at h
          · next hq =>
              split at h
              · simp only [Except.ok.injEq, Prod.mk.injEq] at h
                have := length_hexQuad hq
                simp only [← h.2, List.length_cons]
                omega
              · simp at h
        · simp at h
    · simp at h

/-- The character of a `\u` escape, which may take two escapes. -/
def unicodeEscape (s : List Char) : Step Char :=
  match hexQuad s with
  | .error e => .error e
  | .ok (n, t) =>
      if isTrailing n then .error (.here .loneSurrogate t)
      else if isLeading n then trailingEscape n t
      else .ok (Char.ofNat n, t)

theorem length_unicodeEscape {s t : List Char} {c : Char} (h : unicodeEscape s = .ok (c, t)) :
    t.length < s.length := by
  unfold unicodeEscape at h
  split at h
  · simp at h
  · next hq =>
      have := length_hexQuad hq
      split at h
      · simp at h
      · split at h
        · have := length_trailingEscape h
          omega
        · simp only [Except.ok.injEq, Prod.mk.injEq] at h
          exact h.2 ▸ this

/-- The character that a letter after a backslash stands for. -/
def simpleEscape? (c : Char) : Option Char :=
  if c = '"' then some '"'
  else if c = '\\' then some '\\'
  else if c = '/' then some '/'
  else if c = 'b' then some '\x08'
  else if c = 'f' then some '\x0c'
  else if c = 'n' then some '\n'
  else if c = 'r' then some '\r'
  else if c = 't' then some '\t'
  else none

/-- The character that an escape stands for. The backslash is read already. -/
def escape (s : List Char) : Step Char :=
  match s with
  | [] => .error (.here .endOfString [])
  | c :: t =>
      if c = 'u' then unicodeEscape t
      else
        match simpleEscape? c with
        | some d => .ok (d, t)
        | none => .error (.next .invalidEscape s)

theorem length_escape {s t : List Char} {c : Char} (h : escape s = .ok (c, t)) :
    t.length < s.length := by
  unfold escape at h
  split at h
  · simp at h
  · split at h
    · exact Nat.lt_succ_of_lt (length_unicodeEscape h)
    · split at h
      · simp only [Except.ok.injEq, Prod.mk.injEq] at h
        simp [h.2]
      · simp at h

/-- Whether a character may not stand in a string without an escape. -/
def isControl (c : Char) : Bool := c.toNat < 0x20

/-- The rest of a string whose first characters were read back to front. -/
def stringOnto (before : List Char) (s : List Char) : Step String :=
  match s with
  | [] => .error (.here .endOfString [])
  | c :: t =>
      if c = '"' then .ok (String.ofList before.reverse, t)
      else if c = '\\' then
        match _h : escape t with
        | .error e => .error e
        | .ok (d, t') => stringOnto (d :: before) t'
      else if isControl c then .error (.next .controlCharacter s)
      else stringOnto (c :: before) t
termination_by s.length
decreasing_by
  · have := length_escape _h
    simp only [List.length_cons]
    omega
  · simp

theorem length_stringOnto {before s t : List Char} {text : String}
    (h : stringOnto before s = .ok (text, t)) : t.length < s.length := by
  fun_induction stringOnto before s with
  | case1 => simp at h
  | case2 before t' =>
      simp only [Except.ok.injEq, Prod.mk.injEq] at h
      simp [h.2]
  | case3 => simp at h
  | case4 before t' d t'' he _ ih =>
      have := length_escape he
      have := ih h
      simp only [List.length_cons]
      omega
  | case5 => simp at h
  | case6 before c t' _ _ _ ih => exact Nat.lt_succ_of_lt (ih h)

/-- A string. Its opening quote is read already. -/
def stringBody (s : List Char) : Step String := stringOnto [] s

theorem length_stringBody {s t : List Char} {text : String}
    (h : stringBody s = .ok (text, t)) : t.length < s.length := length_stringOnto h

/-! ### Numbers -/

/-- Read digits onto `n` as long as the number has 64 bits, and count them. -/
def significand (n count : Nat) : List Char → Nat × Nat × List Char
  | [] => (n, count, [])
  | c :: s =>
      if isDigit c ∧ n * 10 + digitValue c ≤ maxWord then
        significand (n * 10 + digitValue c) (count + 1) s
      else (n, count, c :: s)

def skipDigits : List Char → List Char
  | [] => []
  | c :: s => if isDigit c then skipDigits s else c :: s

/-- Whether the next character is a digit. -/
def startsWithDigit : List Char → Bool
  | [] => false
  | c :: _ => isDigit c

/-- Whether the next character begins an exponent. -/
def startsWithExponent : List Char → Bool
  | [] => false
  | c :: _ => c == 'e' || c == 'E'

theorem length_significand_le (n count : Nat) (s : List Char) :
    (significand n count s).2.2.length ≤ s.length := by
  induction s generalizing n count with
  | nil => simp [significand]
  | cons c s ih =>
      rw [significand]
      split
      · exact Nat.le_succ_of_le (ih _ _)
      · exact Nat.le_refl _

theorem length_skipDigits_le (s : List Char) : (skipDigits s).length ≤ s.length := by
  induction s with
  | nil => simp [skipDigits]
  | cons c s ih =>
      rw [skipDigits]
      split
      · exact Nat.le_succ_of_le ih
      · exact Nat.le_refl _

/-- A double with the given sign, digits and exponent. -/
def doubleOf (negative : Bool) (n : Nat) (exponent : Int) (s : List Char) : Step Number :=
  match Magnitude.ofDecimal n exponent with
  | some f => .ok (.double ⟨negative, f⟩, s)
  | none => .error (.here .numberOutOfRange s)

theorem snd_of_doubleOf {negative : Bool} {n : Nat} {exponent : Int} {s t : List Char}
    {x : Number} (h : doubleOf negative n exponent s = .ok (x, t)) : t = s := by
  unfold doubleOf at h
  split at h
  · simp only [Except.ok.injEq, Prod.mk.injEq] at h
    exact h.2.symm
  · simp at h

/-- The greatest exponent that is read. -/
def maxExponent : Nat := Nat.pow 2 31 - 1

/-- The digits of an exponent, or `none` with what follows the digit that made it too great. -/
def exponentDigits (n : Nat) : List Char → Option Nat × List Char
  | [] => (some n, [])
  | c :: s =>
      if isDigit c then
        if n * 10 + digitValue c ≤ maxExponent then exponentDigits (n * 10 + digitValue c) s
        else (none, s)
      else (some n, c :: s)

theorem length_exponentDigits_le (n : Nat) (s : List Char) :
    (exponentDigits n s).2.length ≤ s.length := by
  induction s generalizing n with
  | nil => simp [exponentDigits]
  | cons c s ih =>
      rw [exponentDigits]
      split
      · split
        · exact Nat.le_succ_of_le (ih _)
        · exact Nat.le_succ _
      · exact Nat.le_refl _

/-- The sign of an exponent, and what follows it. -/
def exponentSign : List Char → Bool × List Char
  | '+' :: s => (false, s)
  | '-' :: s => (true, s)
  | s => (false, s)

theorem length_exponentSign_le (s : List Char) : (exponentSign s).2.length ≤ s.length := by
  unfold exponentSign
  split <;> simp

/-- The exponent of a number with the digits `n`. The letter is read already. -/
def exponentPart (negative : Bool) (n : Nat) (exponent : Int) (s : List Char) : Step Number :=
  match exponentSign s with
  | (below, s₁) =>
      match s₁ with
      | [] => .error (.here .endOfValue [])
      | c :: s₂ =>
          if isDigit c then
            match exponentDigits (digitValue c) s₂ with
            | (some e, s₃) =>
                doubleOf negative n (if below then exponent - e else exponent + e) s₃
            | (none, s₃) =>
                if n ≠ 0 ∧ below = false then .error (.here .numberOutOfRange s₃)
                else .ok (.double ⟨negative, .zero⟩, skipDigits s₃)
          else .error (.next .invalidNumber s₁)

theorem length_exponentPart {negative : Bool} {n : Nat} {exponent : Int} {s t : List Char}
    {x : Number} (h : exponentPart negative n exponent s = .ok (x, t)) :
    t.length < s.length := by
  unfold exponentPart at h
  split at h
  next below s₁ hs =>
    have h₁ := length_exponentSign_le s
    simp only [hs] at h₁
    split at h
    · simp at h
    · next c s₂ =>
        simp only [List.length_cons] at h₁
        split at h
        · split at h
          · next e s₃ he =>
              have h₂ := length_exponentDigits_le (digitValue c) s₂
              simp only [he] at h₂
              rw [snd_of_doubleOf h]
              omega
          · next s₃ he =>
              have h₂ := length_exponentDigits_le (digitValue c) s₂
              simp only [he] at h₂
              split at h
              · simp at h
              · simp only [Except.ok.injEq, Prod.mk.injEq] at h
                have := length_skipDigits_le s₃
                rw [← h.2]
                omega
        · simp at h

/-- What follows the digits of a number: an exponent or nothing. -/
def exponentOrEnd (negative : Bool) (n : Nat) (exponent : Int) (s : List Char) : Step Number :=
  match s with
  | [] => doubleOf negative n exponent []
  | c :: t =>
      if c = 'e' ∨ c = 'E' then exponentPart negative n exponent t
      else doubleOf negative n exponent s

theorem length_exponentOrEnd {negative : Bool} {n : Nat} {exponent : Int} {s t : List Char}
    {x : Number} (h : exponentOrEnd negative n exponent s = .ok (x, t)) :
    t.length ≤ s.length := by
  unfold exponentOrEnd at h
  split at h
  · exact Nat.le_of_eq (congrArg List.length (snd_of_doubleOf h))
  · split at h
    · exact Nat.le_succ_of_le (Nat.le_of_lt (length_exponentPart h))
    · exact Nat.le_of_eq (congrArg List.length (snd_of_doubleOf h))

/-- The digits after the point of a number. Digits beyond 64 bits are dropped. -/
def fractionPart (negative : Bool) (n : Nat) (exponent : Int) (s : List Char) : Step Number :=
  match significand n 0 s with
  | (m, count, t) =>
      let e := exponent - (count : Int)
      if startsWithDigit t then exponentOrEnd negative m e (skipDigits t)
      else if startsWithDigit s then exponentOrEnd negative m e t
      else if s.isEmpty then .error (.here .endOfValue [])
      else .error (.next .invalidNumber s)

theorem length_fractionPart {negative : Bool} {n : Nat} {exponent : Int} {s t : List Char}
    {x : Number} (h : fractionPart negative n exponent s = .ok (x, t)) :
    t.length ≤ s.length := by
  unfold fractionPart at h
  split at h
  next m count u hm =>
    have h₁ := length_significand_le n 0 s
    simp only [hm] at h₁
    have h₂ := length_skipDigits_le u
    split at h
    · have := length_exponentOrEnd h
      omega
    · split at h
      · have := length_exponentOrEnd h
        omega
      · split at h <;> simp at h

/-- A whole number below `2 ^ 64` with a sign. Negative numbers below `-2 ^ 63` and the negative
zero are doubles. -/
def wholeNumber (negative : Bool) (n : Nat) (s : List Char) : Step Number :=
  if negative then
    if 0 < n ∧ n ≤ Nat.pow 2 63 then .ok (.integer (-(n : Int)), s) else doubleOf true n 0 s
  else .ok (.integer n, s)

theorem snd_of_wholeNumber {negative : Bool} {n : Nat} {s t : List Char} {x : Number}
    (h : wholeNumber negative n s = .ok (x, t)) : t = s := by
  unfold wholeNumber at h
  split at h
  · split at h
    · simp only [Except.ok.injEq, Prod.mk.injEq] at h
      exact h.2.symm
    · exact snd_of_doubleOf h
  · simp only [Except.ok.injEq, Prod.mk.injEq] at h
    exact h.2.symm

/-- What follows the digits `n` before the point. If `dropped` is zero all of them were kept. -/
def afterDigits (negative : Bool) (n dropped : Nat) (s : List Char) : Step Number :=
  match s with
  | '.' :: t => fractionPart negative n dropped t
  | _ =>
      if startsWithExponent s then exponentOrEnd negative n dropped s
      else if dropped = 0 then wholeNumber negative n s
      else doubleOf negative n dropped s

theorem length_afterDigits {negative : Bool} {n dropped : Nat} {s t : List Char} {x : Number}
    (h : afterDigits negative n dropped s = .ok (x, t)) : t.length ≤ s.length := by
  unfold afterDigits at h
  split at h
  · exact Nat.le_succ_of_le (length_fractionPart h)
  · split at h
    · exact length_exponentOrEnd h
    · split at h
      · exact Nat.le_of_eq (congrArg List.length (snd_of_wholeNumber h))
      · exact Nat.le_of_eq (congrArg List.length (snd_of_doubleOf h))

/-- A number without its sign. -/
def unsignedNumber (negative : Bool) (s : List Char) : Step Number :=
  match s with
  | [] => .error (.here .endOfValue [])
  | c :: t =>
      if c = '0' then
        if startsWithDigit t then .error (.next .invalidNumber t)
        else afterDigits negative 0 0 t
      else if isDigit c then
        match significand (digitValue c) 0 t with
        | (n, _, u) => afterDigits negative n (u.takeWhile isDigit).length (skipDigits u)
      else .error (.next .invalidNumber s)

theorem length_unsignedNumber {negative : Bool} {s t : List Char} {x : Number}
    (h : unsignedNumber negative s = .ok (x, t)) : t.length < s.length := by
  unfold unsignedNumber at h
  split at h
  · simp at h
  · next c s =>
      split at h
      · split at h
        · simp at h
        · exact Nat.lt_succ_of_le (length_afterDigits h)
      · split at h
        · split at h
          next n _ u hu =>
            have h₁ := length_significand_le (digitValue c) 0 s
            simp only [hu] at h₁
            have h₂ := length_skipDigits_le u
            have h₃ := length_afterDigits h
            simp only [List.length_cons]
            omega
        · simp at h

def number (s : List Char) : Step Number :=
  match s with
  | '-' :: t => unsignedNumber true t
  | _ => unsignedNumber false s

theorem length_number {s t : List Char} {x : Number} (h : number s = .ok (x, t)) :
    t.length < s.length := by
  unfold number at h
  split at h
  · exact Nat.lt_succ_of_lt (length_unsignedNumber h)
  · exact length_unsignedNumber h

end FlexFold.Json
