import FlexFold.Json.Skip

/-!
Records with fixed fields. A record is written as an object, whose unknown fields are skipped, or
as an array of its fields in order.
-/

namespace FlexFold.Json

/-- A field of a record that is gathered in a state `σ`. -/
structure Field (σ : Type) where
  name : String
  /-- Whether the state has the field already. -/
  isSet : σ → Bool
  /-- The reader of the field's value. -/
  reader : σ → Reader σ

/-- A field that the state keeps in a slot of its own. -/
def Field.slot {σ α : Type} (name : String) (get : σ → Option α) (set : σ → α → σ)
    (reader : Reader α) : Field σ where
  name
  isSet state := (get state).isSome
  reader state := reader.map (set state)

/-- The value of a field that must not be missing. -/
def required {α : Type} (name : String) (value : Option α) : Except String α :=
  match value with
  | some a => .ok a
  | none => .error name

/-- How a record is read. -/
structure Record (σ α : Type) where
  /-- The name of the record in messages. -/
  name : String
  /-- The fields in order. -/
  fields : List (Field σ)
  /-- The state before the first field. -/
  start : σ
  /-- The record, or the name of a field that is missing. -/
  finish : σ → Except String α
  /-- Whether the last fields may be missing in an array. -/
  lenient : Bool

namespace Record

variable {σ α : Type}

/-- The reader of the value of a key. -/
def fieldReader (r : Record σ α) (state : σ) (key : String) : Except Cause (Reader σ) :=
  match r.fields.find? fun field => field.name = key with
  | none => .ok (Reader.skip.map fun _ => state)
  | some field =>
      if field.isSet state then .error (.duplicateField field.name)
      else .ok (field.reader state)

/-- The record that a state amounts to. -/
def finishFields (r : Record σ α) (state : σ) : Except Cause α :=
  match r.finish state with
  | .ok a => .ok a
  | .error name => .error (.missingField name)

/-- The end of an array all of whose fields are read. -/
def closeArray (s : List Char) : Except Fault (List Char) :=
  match skipSpaces s with
  | [] => .error (.here .endOfList [])
  | c :: t =>
      if c = ']' then .ok t
      else if c = ',' then
        match skipSpaces t with
        | [] => .error (.here .trailingCharacters [])
        | d :: u =>
            .error (.next (if d = ']' then .trailingComma else .trailingCharacters) (d :: u))
      else .error (.next .trailingCharacters (c :: t))

theorem length_closeArray {s t : List Char} (h : closeArray s = .ok t) :
    t.length ≤ s.length := by
  unfold closeArray at h
  have hs := length_skipSpaces_le s
  split at h
  · simp at h
  · next c u hc =>
      rw [hc, List.length_cons] at hs
      split at h
      · simp only [Except.ok.injEq] at h
        rw [← h]
        omega
      split at h
      · split at h <;> simp at h
      · simp at h

/-- The record of an array that ends after `count` fields. -/
def finishShort (r : Record σ α) (state : σ) (count : Nat) : Except Cause α :=
  if r.lenient then r.finishFields state
  else .error (.invalidLength count
    s!"struct {r.name} with {Decimal.natText r.fields.length} elements")

/-- Read fields by their order, after `count` others. -/
def itemsOnto (r : Record σ α) : List (Field σ) → σ → (count : Nat) → List Char → Step α
  | [], state, _, s =>
      match closeArray s with
      | .error e => .error e
      | .ok t =>
          match r.finishFields state with
          | .error cause => .error (.here cause t)
          | .ok a => .ok (a, t)
  | field :: fields, state, count, s =>
      match Reader.nextItem (count == 0) s with
      | .error e => .error e
      | .ok (.close t) =>
          match r.finishShort state count with
          | .error cause => .error (.here cause t)
          | .ok a => .ok (a, t)
      | .ok (.part u) =>
          match (field.reader state).run u with
          | .error e => .error e
          | .ok (state, t) => itemsOnto r fields state (count + 1) t

theorem length_itemsOnto {r : Record σ α} {fields : List (Field σ)} {state : σ} {count : Nat}
    {s t : List Char} {a : α} (h : r.itemsOnto fields state count s = .ok (a, t)) :
    t.length ≤ s.length := by
  induction fields generalizing state count s with
  | nil =>
      rw [itemsOnto] at h
      split at h
      · simp at h
      · next hc =>
          split at h
          · simp at h
          · simp only [Except.ok.injEq, Prod.mk.injEq] at h
            exact h.2 ▸ length_closeArray hc
  | cons field fields ih =>
      rw [itemsOnto] at h
      split at h
      · simp at h
      · next hn =>
          split at h
          · simp at h
          · simp only [Except.ok.injEq, Prod.mk.injEq] at h
            exact h.2 ▸ Nat.le_of_lt (Reader.length_nextItem_close hn)
      · next hn =>
          split at h
          · simp at h
          · next hr =>
              have := ih h
              have := (field.reader state).consumes hr
              have := Reader.length_nextItem_part hn
              omega

def reader (r : Record σ α) : Reader α :=
  Reader.spaced (fun c t =>
    if c = '[' then r.itemsOnto r.fields r.start 0 t
    else if c = '\x7b' then
      Reader.fieldsOnto
        { start := r.start, field := r.fieldReader, finish := r.finishFields } r.start true t
    else .error (Reader.mismatch ("struct " ++ r.name) (c :: t))) (by
    intro c t a u h
    split at h
    · exact length_itemsOnto h
    split at h
    · exact Nat.le_of_lt (Reader.length_fieldsOnto h)
    · simp at h)

end Record

end FlexFold.Json
