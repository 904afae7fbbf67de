import FlexFold.Decimal.Binary64

/-!
JSON values. An object holds its fields in a fixed order; objects that are read keep theirs
sorted by key, each key once.
-/

namespace FlexFold.Json

open Decimal (Binary64)

/-- A number. Integers from `-2 ^ 63` to `2 ^ 64 - 1` are kept exactly, all others as doubles. -/
inductive Number where
  | integer (value : Int)
  | double (value : Binary64)
deriving DecidableEq, Repr

inductive Value where
  | null
  | bool (value : Bool)
  | number (value : Number)
  | string (value : String)
  | array (items : List Value)
  | object (fields : List (String × Value))

instance : Inhabited Value := ⟨.null⟩

/-- Named values in a fixed order. -/
abbrev Fields := List (String × Value)

mutual

/-- Equality of values is decided part by part. -/
def Value.decEq : (a b : Value) → Decidable (a = b)
  | .null, .null => isTrue rfl
  | .bool a, .bool b => decidable_of_iff (a = b) (by simp)
  | .number a, .number b => decidable_of_iff (a = b) (by simp)
  | .string a, .string b => decidable_of_iff (a = b) (by simp)
  | .array a, .array b =>
      have := Value.decEqItems a b
      decidable_of_iff (a = b) (by simp)
  | .object a, .object b =>
      have := Value.decEqFields a b
      decidable_of_iff (a = b) (by simp)
  | .null, .bool _ | .null, .number _ | .null, .string _ | .null, .array _ | .null, .object _
  | .bool _, .null | .bool _, .number _ | .bool _, .string _ | .bool _, .array _
  | .bool _, .object _ | .number _, .null | .number _, .bool _ | .number _, .string _
  | .number _, .array _ | .number _, .object _ | .string _, .null | .string _, .bool _
  | .string _, .number _ | .string _, .array _ | .string _, .object _ | .array _, .null
  | .array _, .bool _ | .array _, .number _ | .array _, .string _ | .array _, .object _
  | .object _, .null | .object _, .bool _ | .object _, .number _ | .object _, .string _
  | .object _, .array _ => isFalse (by simp)

def Value.decEqItems : (a b : List Value) → Decidable (a = b)
  | [], [] => isTrue rfl
  | [], _ :: _ | _ :: _, [] => isFalse (by simp)
  | x :: a, y :: b =>
      have := Value.decEq x y
      have := Value.decEqItems a b
      decidable_of_iff (x = y ∧ a = b) (by simp)

def Value.decEqFields : (a b : List (String × Value)) → Decidable (a = b)
  | [], [] => isTrue rfl
  | [], _ :: _ | _ :: _, [] => isFalse (by simp)
  | (k, x) :: a, (l, y) :: b =>
      have := Value.decEq x y
      have := Value.decEqFields a b
      decidable_of_iff (k = l ∧ x = y ∧ a = b) (by simp [and_assoc])

end

instance : DecidableEq Value := Value.decEq

/-- Set a field in a list that is sorted by key. A later value of a key replaces the earlier. -/
def Fields.insert (key : String) (value : Value) : Fields → Fields
  | [] => [(key, value)]
  | (k, v) :: rest =>
      if key < k then (key, value) :: (k, v) :: rest
      else if key = k then (key, value) :: rest
      else (k, v) :: Fields.insert key value rest

def Fields.get? (fields : Fields) (key : String) : Option Value :=
  (fields.find? fun field => field.1 = key).map Prod.snd

/-- The field `key` if it has a value. -/
def optionalField {α : Type} (key : String) (f : α → Value) (value : Option α) : Fields :=
  match value with
  | some a => [(key, f a)]
  | none => []

end FlexFold.Json
