import FlexFold.FirstSeen
import FlexFold.Json.Lexeme

/-!
Readers of typed data from JSON text. A reader always takes something off the front of the
text, which is why the loops over items and fields end. It reports the first fault it meets, so
a value of the wrong type wins over a syntax error that comes later.
-/

namespace FlexFold.Json

open Decimal (isDigit)

/-- A function that takes the text of an `α` off the front of some characters. -/
structure Reader (α : Type) where
  run : List Char → Step α
  consumes : ∀ {s a t}, run s = .ok (a, t) → t.length < s.length

namespace Reader

variable {α β σ : Type}

/-- Read an `α` and turn it into a `β`. -/
def map (f : α → β) (r : Reader α) : Reader β where
  run s := match r.run s with
    | .error e => .error e
    | .ok (a, t) => .ok (f a, t)
  consumes := by
    intro s b t h
    split at h
    · simp at h
    · next a u hr =>
        simp only [Except.ok.injEq, Prod.mk.injEq] at h
        exact h.2 ▸ r.consumes hr

/-! ### Scalars -/

/-- The fault of a text that begins with something else than expected. Scalars are read before
they are reported. -/
def mismatch (expected : String) (s : List Char) : Fault :=
  let found (value : Found) (rest : List Char) : Fault := .here (.invalidType value expected) rest
  let literalOr (letters : List Char) (value : Found) (t : List Char) : Fault :=
    match literal letters t with
    | .error e => e
    | .ok u => found value u
  match s with
  | [] => .here .endOfValue []
  | c :: t =>
      if c = 'n' then literalOr ['u', 'l', 'l'] .null t
      else if c = 't' then literalOr ['r', 'u', 'e'] (.bool true) t
      else if c = 'f' then literalOr ['a', 'l', 's', 'e'] (.bool false) t
      else if c = '-' ∨ isDigit c then
        match number s with
        | .error e => e
        | .ok (.integer i, u) => found (.integer i) u
        | .ok (.double x, u) => found (.double x) u
      else if c = '"' then
        match stringBody t with
        | .error e => e
        | .ok (text, u) => found (.string text) u
      else if c = '[' then found .sequence s
      else if c = '\x7b' then found .map s
      else .next .expectedValue s

/-- Skip the blanks and go on with the first character that is none. -/
def runSpaced (f : Char → List Char → Step α) (s : List Char) : Step α :=
  match skipSpaces s with
  | [] => .error (.here .endOfValue [])
  | c :: t => f c t

theorem length_runSpaced {f : Char → List Char → Step α}
    (hf : ∀ {c t a u}, f c t = .ok (a, u) → u.length ≤ t.length) {s t : List Char} {a : α}
    (h : runSpaced f s = .ok (a, t)) : t.length < s.length := by
  unfold runSpaced at h
  have hs := length_skipSpaces_le s
  split at h
  · simp at h
  · next c u hc =>
      have := hf h
      rw [hc, List.length_cons] at hs
      omega

/-- A reader that begins after the blanks and is told the first character. -/
def spaced (f : Char → List Char → Step α)
    (hf : ∀ {c t a u}, f c t = .ok (a, u) → u.length ≤ t.length) : Reader α where
  run := runSpaced f
  consumes := length_runSpaced hf

def string : Reader String :=
  spaced (fun c t => if c = '"' then stringBody t else .error (mismatch "a string" (c :: t))) (by
    intro c t a u h
    split at h
    · exact Nat.le_of_lt (length_stringBody h)
    · simp at h)

/-- A string that spells an `α`. -/
def spelled (expected : String) (f : String → Except Cause α) : Reader α :=
  spaced (fun c t =>
    if c = '"' then
      match stringBody t with
      | .error e => .error e
      | .ok (text, u) =>
          match f text with
          | .error cause => .error (.here cause u)
          | .ok a => .ok (a, u)
    else .error (mismatch expected (c :: t))) (by
    intro c t a u h
    split at h
    · split at h
      · simp at h
      · next hb =>
          split at h
          · simp at h
          · simp only [Except.ok.injEq, Prod.mk.injEq] at h
            exact h.2 ▸ Nat.le_of_lt (length_stringBody hb)
    · simp at h)

/-- Take the rest of a literal and stand for a value. -/
def literalAs (letters : List Char) (a : α) (t : List Char) : Step α :=
  match literal letters t with
  | .error e => .error e
  | .ok u => .ok (a, u)

theorem length_literalAs {letters t u : List Char} {a b : α}
    (h : literalAs letters a t = .ok (b, u)) : u.length ≤ t.length := by
  unfold literalAs at h
  split at h
  · simp at h
  · next hl =>
      simp only [Except.ok.injEq, Prod.mk.injEq] at h
      exact h.2 ▸ length_literal hl

def boolean : Reader Bool :=
  spaced (fun c t =>
    if c = 't' then literalAs ['r', 'u', 'e'] true t
    else if c = 'f' then literalAs ['a', 'l', 's', 'e'] false t
    else .error (mismatch "a boolean" (c :: t))) (by
    intro c t a u h
    split at h
    · exact length_literalAs h
    · split at h
      · exact length_literalAs h
      · simp at h)

/-- A number that has to be a whole one below `2 ^ 64`. -/
def naturalOf (kind : String) (s : List Char) : Step Nat :=
  match number s with
  | .error e => .error e
  | .ok (.integer i, u) =>
      if i < 0 then .error (.here (.invalidValue (.integer i) kind) u) else .ok (i.toNat, u)
  | .ok (.double x, u) => .error (.here (.invalidType (.double x) kind) u)

theorem length_naturalOf {kind : String} {s t : List Char} {n : Nat}
    (h : naturalOf kind s = .ok (n, t)) : t.length < s.length := by
  unfold naturalOf at h
  split at h
  · simp at h
  · next hn =>
      split at h
      · simp at h
      · simp only [Except.ok.injEq, Prod.mk.injEq] at h
        exact h.2 ▸ length_number hn
  · simp at h

/-- A natural number. Faults call its type `kind`. -/
def natural (kind : String) : Reader Nat :=
  spaced (fun c t =>
    if c = '-' ∨ isDigit c then naturalOf kind (c :: t)
    else .error (mismatch kind (c :: t))) (by
    intro c t a u h
    split at h
    · exact Nat.le_of_lt_succ (length_naturalOf h)
    · simp at h)

/-- What `r` reads, or `null`. -/
def nullable (r : Reader α) : Reader (Option α) where
  run s := match skipSpaces s with
    | 'n' :: t => literalAs ['u', 'l', 'l'] none t
    | u => match r.run u with
      | .error e => .error e
      | .ok (a, t) => .ok (some a, t)
  consumes := by
    intro s a t h
    have hs := length_skipSpaces_le s
    split at h
    · next u hu =>
        have := length_literalAs h
        rw [hu, List.length_cons] at hs
        omega
    · split at h
      · simp at h
      · next hr =>
          simp only [Except.ok.injEq, Prod.mk.injEq] at h
          have := r.consumes hr
          rw [← h.2]
          omega

/-! ### Arrays -/

/-- What comes next in an array or an object. -/
inductive Next where
  /-- Another part, which begins here. -/
  | part (s : List Char)
  /-- The end; the closing bracket is read. -/
  | close (s : List Char)

/-- Go to the next item of an array. -/
def nextItem (first : Bool) (s : List Char) : Except Fault Next :=
  match skipSpaces s with
  | [] => .error (.here .endOfList [])
  | c :: t =>
      if c = ']' then .ok (.close t)
      else if first then .ok (.part (c :: t))
      else if c = ',' then
        match skipSpaces t with
        | [] => .error (.here .endOfValue [])
        | d :: u =>
            if d = ']' then .error (.next .trailingComma (d :: u)) else .ok (.part (d :: u))
      else .error (.next .expectedListCommaOrEnd (c :: t))

theorem length_nextItem_part {first : Bool} {s t : List Char}
    (h : nextItem first s = .ok (.part t)) : t.length ≤ s.length := by
  unfold nextItem at h
  have hs := length_skipSpaces_le s
  split at h
  · simp at h
  · next c u hc =>
      rw [hc, List.length_cons] at hs
      have hu := length_skipSpaces_le u
      split at h
      · simp at h
      · split at h
        · simp only [Except.ok.injEq, Next.part.injEq] at h
          rw [← h, List.length_cons]
          exact hs
        · split at h
          · split at h
            · simp at h
            · next d v hd =>
                split at h
                · simp at h
                · simp only [Except.ok.injEq, Next.part.injEq] at h
                  rw [← h, ← hd]
                  omega
          · simp at h

theorem length_nextItem_close {first : Bool} {s t : List Char}
    (h : nextItem first s = .ok (.close t)) : t.length < s.length := by
  unfold nextItem at h
  have hs := length_skipSpaces_le s
  split at h
  · simp at h
  · next c u hc =>
      rw [hc, List.length_cons] at hs
      split at h
      · simp only [Except.ok.injEq, Next.close.injEq] at h
        rw [← h]
        omega
      · split at h
        · simp at h
        · split at h
          · split at h
            · simp at h
            · split at h <;> simp at h
          · simp at h

/-- The items of an array, after those that were read back to front. -/
def itemsOnto (item : Reader α) (before : List α) (first : Bool) (s : List Char) :
    Step (List α) :=
  match _h : nextItem first s with
  | .error e => .error e
  | .ok (.close t) => .ok (before.reverse, t)
  | .ok (.part u) =>
      match _hr : item.run u with
      | .error e => .error e
      | .ok (a, t) => itemsOnto item (a :: before) false t
termination_by s.length
decreasing_by
  have := length_nextItem_part _h
  have := item.consumes _hr
  omega

theorem length_itemsOnto {item : Reader α} {before items : List α} {first : Bool}
    {s t : List Char} (h : itemsOnto item before first s = .ok (items, t)) :
    t.length < s.length := by
  fun_induction itemsOnto item before first s with
  | case1 => simp at h
  | case2 before first s u hn =>
      simp only [Except.ok.injEq, Prod.mk.injEq] at h
      exact h.2 ▸ length_nextItem_close hn
  | case3 => simp at h
  | case4 before first s u hn a v hr ih =>
      have := ih h
      have := length_nextItem_part hn
      have := item.consumes hr
      omega

/-- An array. There is no reader of the items if no more container may be opened. -/
def array (item : Option (Reader α)) : Reader (List α) :=
  spaced (fun c t =>
    if c = '[' then
      match item with
      | none => .error (.next .nestingLimit (c :: t))
      | some item => itemsOnto item [] true t
    else .error (mismatch "a sequence" (c :: t))) (by
    intro c t a u h
    split at h
    · split at h
      · simp at h
      · exact Nat.le_of_lt (length_itemsOnto h)
    · simp at h)

/-! ### Objects -/

/-- Go to the next key of an object and take its opening quote. -/
def nextKey (first : Bool) (s : List Char) : Except Fault Next :=
  match skipSpaces s with
  | [] => .error (.here .endOfObject [])
  | c :: t =>
      if c = '\x7d' then .ok (.close t)
      else if first then
        if c = '"' then .ok (.part t) else .error (.next .keyMustBeString (c :: t))
      else if c = ',' then
        match skipSpaces t with
        | [] => .error (.here .endOfValue [])
        | d :: u =>
            if d = '"' then .ok (.part u)
            else if d = '\x7d' then .error (.next .trailingComma (d :: u))
            else .error (.next .keyMustBeString (d :: u))
      else .error (.next .expectedObjectCommaOrEnd (c :: t))

theorem length_nextKey {first : Bool} {s t : List Char}
    (h : nextKey first s = .ok (.part t) ∨ nextKey first s = .ok (.close t)) :
    t.length < s.length := by
  unfold nextKey at h
  have hs := length_skipSpaces_le s
  split at h
  · simp at h
  · next c u hc =>
      rw [hc, List.length_cons] at hs
      have hu := length_skipSpaces_le u
      split at h
      · simp only [Except.ok.injEq, reduceCtorEq, Next.close.injEq, false_or] at h
        rw [← h]
        omega
      · split at h
        · split at h
          · simp only [Except.ok.injEq, Next.part.injEq, reduceCtorEq, or_false] at h
            rw [← h]
            omega
          · simp at h
        · split at h
          · split at h
            · simp at h
            · next d v hd =>
                rw [hd, List.length_cons] at hu
                split at h
                · simp only [Except.ok.injEq, Next.part.injEq, reduceCtorEq, or_false] at h
                  rw [← h]
                  omega
                · split at h <;> simp at h
          · simp at h

def colon (s : List Char) : Except Fault (List Char) :=
  match skipSpaces s with
  | [] => .error (.here .endOfObject [])
  | c :: t => if c = ':' then .ok t else .error (.next .expectedColon (c :: t))

theorem length_colon {s t : List Char} (h : colon s = .ok t) : t.length < s.length := by
  unfold colon at h
  have hs := length_skipSpaces_le s
  split at h
  · simp at h
  · next c u hc =>
      rw [hc, List.length_cons] at hs
      split at h
      · simp only [Except.ok.injEq] at h
        rw [← h]
        omega
      · simp at h

/-- What is left when a refused key is followed by the end of the object. -/
def afterClose (s : List Char) : List Char :=
  match skipSpaces s with
  | '\x7d' :: t => t
  | t => t

/-- How the fields of an object are gathered. -/
structure Gather (σ α : Type) where
  /-- What is known before the first field. -/
  start : σ
  /-- The reader of the value of a key, or why the key is refused. -/
  field : σ → String → Except Cause (Reader σ)
  /-- What the fields amount to, or what is missing. -/
  finish : σ → Except Cause α

/-- The fields of an object after those that `state` knows. -/
def fieldsOnto (g : Gather σ α) (state : σ) (first : Bool) (s : List Char) : Step α :=
  match _h : nextKey first s with
  | .error e => .error e
  | .ok (.close t) =>
      match g.finish state with
      | .error cause => .error (.here cause t)
      | .ok a => .ok (a, t)
  | .ok (.part s₁) =>
      match _hk : stringBody s₁ with
      | .error e => .error e
      | .ok (key, s₂) =>
          match g.field state key with
          | .error cause => .error (.here cause (afterClose s₂))
          | .ok r =>
              match _hc : colon s₂ with
              | .error e => .error e
              | .ok s₃ =>
                  match _hr : r.run s₃ with
                  | .error e => .error e
                  | .ok (state, t) => fieldsOnto g state false t
termination_by s.length
decreasing_by
  have := length_nextKey (.inl _h)
  have := length_stringBody _hk
  have := length_colon _hc
  have := r.consumes _hr
  omega

theorem length_fieldsOnto {g : Gather σ α} {state : σ} {first : Bool} {s t : List Char} {a : α}
    (h : fieldsOnto g state first s = .ok (a, t)) : t.length < s.length := by
  fun_induction fieldsOnto g state first s with
  | case1 => simp at h
  | case2 => simp at h
  | case3 state first s u hn b hb =>
      simp only [Except.ok.injEq, Prod.mk.injEq] at h
      exact h.2 ▸ length_nextKey (.inr hn)
  | case4 => simp at h
  | case5 => simp at h
  | case6 => simp at h
  | case7 => simp at h
  | case8 state first s s₁ hn key s₂ hk r hf s₃ hc state' v hr ih =>
      have := ih h
      have := length_nextKey (.inl hn)
      have := length_stringBody hk
      have := length_colon hc
      have := r.consumes hr
      omega

/-- An object. It is refused if no more container may be opened. -/
def object (expected : String) (mayOpen : Bool) (g : Gather σ α) : Reader α :=
  spaced (fun c t =>
    if c = '\x7b' then
      if mayOpen then fieldsOnto g g.start true t else .error (.next .nestingLimit (c :: t))
    else .error (mismatch expected (c :: t))) (by
    intro c t a u h
    split at h
    · split at h
      · exact Nat.le_of_lt (length_fieldsOnto h)
      · simp at h
    · simp at h)

/-- An object whose fields are all read alike, in first-seen order. A repeated key keeps its
place and takes the later value. -/
def mapOf (item : Reader α) : Reader (FirstSeen String α) :=
  object "a map" true
    { start := .empty
      field := fun map key => .ok (item.map (map.insert key))
      finish := .ok }

end Reader

/-! ### Values and documents -/

/-- A value, given the reader of what stands in its containers. -/
def Value.readerWith (inner : Option (Reader Value)) : Reader Value :=
  Reader.spaced (fun c t =>
    if c = 'n' then Reader.literalAs ['u', 'l', 'l'] .null t
    else if c = 't' then Reader.literalAs ['r', 'u', 'e'] (.bool true) t
    else if c = 'f' then Reader.literalAs ['a', 'l', 's', 'e'] (.bool false) t
    else if c = '-' ∨ isDigit c then
      match Json.number (c :: t) with
      | .error e => .error e
      | .ok (x, u) => .ok (.number x, u)
    else if c = '"' then
      match stringBody t with
      | .error e => .error e
      | .ok (text, u) => .ok (.string text, u)
    else if c = '[' then
      match inner with
      | none => .error (.next .nestingLimit (c :: t))
      | some item =>
          match Reader.itemsOnto item [] true t with
          | .error e => .error e
          | .ok (items, u) => .ok (.array items, u)
    else if c = '\x7b' then
      match inner with
      | none => .error (.next .nestingLimit (c :: t))
      | some item =>
          Reader.fieldsOnto
            { start := []
              field := fun fields key => .ok (item.map fun v => Fields.insert key v fields)
              finish := fun fields => .ok (.object fields) } [] true t
    else .error (.next .expectedValue (c :: t))) (by
    intro c t a u h
    split at h
    · exact Reader.length_literalAs h
    split at h
    · exact Reader.length_literalAs h
    split at h
    · exact Reader.length_literalAs h
    split at h
    · split at h
      · simp at h
      · next hn =>
          simp only [Except.ok.injEq, Prod.mk.injEq] at h
          exact h.2 ▸ Nat.le_of_lt_succ (length_number hn)
    split at h
    · split at h
      · simp at h
      · next hb =>
          simp only [Except.ok.injEq, Prod.mk.injEq] at h
          exact h.2 ▸ Nat.le_of_lt (length_stringBody hb)
    split at h
    · split at h
      · simp at h
      · split at h
        · simp at h
        · next hi =>
            simp only [Except.ok.injEq, Prod.mk.injEq] at h
            exact h.2 ▸ Nat.le_of_lt (Reader.length_itemsOnto hi)
    split at h
    · split at h
      · simp at h
      · exact Nat.le_of_lt (Reader.length_fieldsOnto h)
    · simp at h)

/-- A value in which at most `budget` containers stand in one another. -/
def Value.reader : (budget : Nat) → Reader Value
  | 0 => Value.readerWith none
  | budget + 1 => Value.readerWith (some (Value.reader budget))

/-- The greatest number of containers that may stand in one another in a document. -/
def maxNesting : Nat := 127

/-- Read a document: one value with nothing but blanks around it. -/
def Reader.parse {α : Type} (r : Reader α) (text : String) : Except Error α :=
  let s := text.toList
  match r.run s with
  | .error fault => .error (.ofFault s fault)
  | .ok (a, t) =>
      match skipSpaces t with
      | [] => .ok a
      | u => .error (.ofFault s (.next .trailingCharacters u))

end FlexFold.Json
