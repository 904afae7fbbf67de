import FlexFold.Json.Reader
import FlexFold.Proofs.Json.Numbers

/-!
The shape of JSON values: how deep their containers stand in one another, and what is true of
every value that was read.
-/

namespace FlexFold.Json

/-! ### Nesting -/

mutual

/-- The greatest number of containers that stand in one another. -/
def Value.nesting : Value → Nat
  | .null | .bool _ | .number _ | .string _ => 0
  | .array items => Value.nestingOfItems items + 1
  | .object fields => Value.nestingOfFields fields + 1

/-- The nesting of the deepest item. -/
def Value.nestingOfItems : List Value → Nat
  | [] => 0
  | item :: items => max item.nesting (Value.nestingOfItems items)

/-- The nesting of the deepest field. -/
def Value.nestingOfFields : List (String × Value) → Nat
  | [] => 0
  | (_, value) :: fields => max value.nesting (Value.nestingOfFields fields)

end

theorem nestingOfItems_le_iff {items : List Value} {budget : Nat} :
    Value.nestingOfItems items ≤ budget ↔ ∀ item ∈ items, item.nesting ≤ budget := by
  induction items with
  | nil => simp [Value.nestingOfItems]
  | cons item items ih =>
      rw [Value.nestingOfItems, Nat.max_le, ih, List.forall_mem_cons]

theorem nestingOfFields_le_iff {fields : Fields} {budget : Nat} :
    Value.nestingOfFields fields ≤ budget ↔ ∀ field ∈ fields, field.2.nesting ≤ budget := by
  induction fields with
  | nil => simp [Value.nestingOfFields]
  | cons field fields ih =>
      rw [Value.nestingOfFields, Nat.max_le, ih, List.forall_mem_cons]

theorem Value.nesting_array_le_iff {items : List Value} {budget : Nat} :
    (Value.array items).nesting ≤ budget + 1 ↔ ∀ item ∈ items, item.nesting ≤ budget := by
  rw [Value.nesting, Nat.add_le_add_iff_right, nestingOfItems_le_iff]

theorem Value.nesting_object_le_iff {fields : Fields} {budget : Nat} :
    (Value.object fields).nesting ≤ budget + 1 ↔ ∀ field ∈ fields, field.2.nesting ≤ budget := by
  rw [Value.nesting, Nat.add_le_add_iff_right, nestingOfFields_le_iff]

/-- A number stands somewhere in a value. -/
inductive Value.Holds (x : Number) : Value → Prop where
  | self : Holds x (.number x)
  | item {items : List Value} {v : Value} (hmem : v ∈ items) (h : Holds x v) :
      Holds x (.array items)
  | field {fields : Fields} {f : String × Value} (hmem : f ∈ fields) (h : Holds x f.2) :
      Holds x (.object fields)

/-! ### Sorted fields -/

/-- The keys ascend, so that no key occurs twice. -/
def Fields.IsSorted (fields : Fields) : Prop := (fields.map Prod.fst).Pairwise (· < ·)

theorem Fields.isSorted_cons {field : String × Value} {fields : Fields} :
    Fields.IsSorted (field :: fields) ↔
      (∀ other ∈ fields, field.1 < other.1) ∧ Fields.IsSorted fields := by
  simp [Fields.IsSorted]

/-- A key that is greater than all others goes to the end. -/
theorem Fields.insert_eq_append {key : String} {value : Value} {fields : Fields}
    (h : ∀ field ∈ fields, field.1 < key) :
    Fields.insert key value fields = fields ++ [(key, value)] := by
  induction fields with
  | nil => rfl
  | cons field fields ih =>
      obtain ⟨k, v⟩ := field
      have hlt : k < key := h (k, v) (by simp)
      have hne : key ≠ k := fun e => String.lt_irrefl k (e ▸ hlt)
      rw [Fields.insert, if_neg (String.lt_asymm hlt), if_neg hne,
        ih fun field hmem => h field (by simp [hmem])]
      rfl

theorem Fields.mem_insert {key : String} {value : Value} {fields : Fields}
    {field : String × Value} (h : field ∈ Fields.insert key value fields) :
    field = (key, value) ∨ field ∈ fields := by
  induction fields with
  | nil => exact .inl (List.mem_singleton.mp h)
  | cons head fields ih =>
      obtain ⟨k, v⟩ := head
      rw [Fields.insert] at h
      split at h
      · exact List.mem_cons.mp h
      · split at h
        · rcases List.mem_cons.mp h with h | h
          · exact .inl h
          · exact .inr (List.mem_cons_of_mem _ h)
        · rcases List.mem_cons.mp h with h | h
          · exact .inr (h ▸ List.mem_cons_self)
          · exact (ih h).imp_right (List.mem_cons_of_mem _)

theorem Fields.isSorted_insert {key : String} {value : Value} {fields : Fields}
    (h : Fields.IsSorted fields) : Fields.IsSorted (Fields.insert key value fields) := by
  induction fields with
  | nil => exact List.pairwise_singleton ..
  | cons head fields ih =>
      obtain ⟨k, v⟩ := head
      obtain ⟨hhead, hrest⟩ := Fields.isSorted_cons.mp h
      rw [Fields.insert]
      split
      · next hlt =>
          refine Fields.isSorted_cons.mpr ⟨fun other hmem => ?_, h⟩
          rcases List.mem_cons.mp hmem with rfl | hmem
          · exact hlt
          · exact String.lt_trans hlt (hhead other hmem)
      · next hge =>
          split
          · next heq => exact Fields.isSorted_cons.mpr ⟨heq ▸ hhead, hrest⟩
          · next hne =>
              have hlt : k < key :=
                Decidable.byContradiction fun hnot =>
                  hne (String.le_antisymm (String.not_lt.mp hnot) (String.not_lt.mp hge))
              refine Fields.isSorted_cons.mpr ⟨fun other hmem => ?_, ih hrest⟩
              rcases Fields.mem_insert hmem with rfl | hmem
              · exact hlt
              · exact hhead other hmem

/-! ### Values that were read -/

/-- How the fields of a value are gathered. -/
def Fields.gather (item : Reader Value) : Reader.Gather Fields Value where
  start := []
  field fields key := .ok (item.map fun v => Fields.insert key v fields)
  finish fields := .ok (.object fields)

/-- The values that a reader returns: integers fit a machine word and fields are sorted. -/
inductive Value.IsRead : Value → Prop where
  | null : IsRead .null
  | bool (b : Bool) : IsRead (.bool b)
  | integer {i : Int} (h : InRange i) : IsRead (.number (.integer i))
  | double (x : Decimal.Binary64) : IsRead (.number (.double x))
  | string (s : String) : IsRead (.string s)
  | array {items : List Value} (h : ∀ item ∈ items, IsRead item) : IsRead (.array items)
  | object {fields : Fields} (hsorted : Fields.IsSorted fields)
      (h : ∀ field ∈ fields, IsRead field.2) : IsRead (.object fields)

end FlexFold.Json
