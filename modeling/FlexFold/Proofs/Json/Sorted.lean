import FlexFold.Proofs.Json.Shape

/-!
Values with all their fields in order. Two values that differ only in the order of their fields
have one sorted form, and a value that was read is in that form already. Sorting keeps every
field, so a sorted form without repeated keys comes from fields without repeated keys.
-/

namespace FlexFold.Json

variable {fields more : Fields} {key : String} {value : Value}

/-! ### Looking up fields -/

theorem Fields.get?_cons (k : String) (v : Value) (fields : Fields) (key : String) :
    Fields.get? ((k, v) :: fields) key = if key = k then some v else Fields.get? fields key := by
  unfold Fields.get?
  by_cases h : key = k
  · simp [h]
  · simp [h, Ne.symm h]

theorem Fields.get?_append (fields more : Fields) (key : String) :
    Fields.get? (fields ++ more) key = (Fields.get? fields key).or (Fields.get? more key) := by
  unfold Fields.get?
  rw [List.find?_append]
  cases fields.find? fun field => field.1 = key <;> rfl

theorem get?_optionalField {α : Type} (first : String) (f : α → Value) (value : Option α)
    (key : String) :
    Fields.get? (optionalField first f value) key = if key = first then value.map f else none := by
  cases value with
  | none => simp [optionalField, Fields.get?]
  | some a => rw [optionalField, Fields.get?_cons]; rfl

theorem Fields.get?_insert (key : String) (value : Value) (fields : Fields) (k : String) :
    Fields.get? (Fields.insert key value fields) k =
      if k = key then some value else Fields.get? fields k := by
  induction fields with
  | nil => rw [Fields.insert, Fields.get?_cons]
  | cons field fields ih =>
      obtain ⟨first, v⟩ := field
      rw [Fields.insert]
      split
      · rw [Fields.get?_cons]
      · split
        · next heq =>
            rw [Fields.get?_cons, Fields.get?_cons, heq]
            split <;> rfl
        · next hne =>
            rw [Fields.get?_cons, Fields.get?_cons, ih]
            by_cases hk : k = first
            · rw [if_pos hk, if_pos hk, if_neg (fun e => hne (e.symm.trans hk))]
            · rw [if_neg hk, if_neg hk]

theorem Fields.get?_eq_none (h : ∀ field ∈ fields, field.1 ≠ key) :
    Fields.get? fields key = none := by
  simpa [Fields.get?] using h

theorem Fields.get?_eq_some_iff (h : (fields.map Prod.fst).Nodup) :
    Fields.get? fields key = some value ↔ (key, value) ∈ fields := by
  induction fields with
  | nil => simp [Fields.get?]
  | cons field fields ih =>
      obtain ⟨first, v⟩ := field
      rw [List.map_cons, List.nodup_cons] at h
      rw [Fields.get?_cons, List.mem_cons, Prod.mk.injEq]
      by_cases hkey : key = first
      · have hnot : (first, value) ∉ fields :=
          fun hmem => h.1 (List.mem_map.mpr ⟨_, hmem, rfl⟩)
        simp [hkey, hnot, eq_comm]
      · simp [hkey, ih h.2]

theorem Fields.IsSorted.nodup (h : Fields.IsSorted fields) : (fields.map Prod.fst).Nodup :=
  List.Pairwise.imp String.ne_of_lt h

theorem Fields.perm_of_get?_eq (h : (fields.map Prod.fst).Nodup)
    (hmore : (more.map Prod.fst).Nodup)
    (heq : ∀ key, Fields.get? fields key = Fields.get? more key) : fields.Perm more := by
  have hnodup : ∀ {fields : Fields}, (fields.map Prod.fst).Nodup → fields.Nodup :=
    fun h => (List.pairwise_map.mp h).imp (mt (congrArg Prod.fst))
  refine (List.perm_ext_iff_of_nodup (hnodup h) (hnodup hmore)).mpr fun field => ?_
  obtain ⟨key, value⟩ := field
  rw [← Fields.get?_eq_some_iff h, heq, Fields.get?_eq_some_iff hmore]

/-- Sorted fields are known by what can be looked up in them. -/
theorem Fields.eq_of_get?_eq (h : Fields.IsSorted fields) (hmore : Fields.IsSorted more)
    (heq : ∀ key, Fields.get? fields key = Fields.get? more key) : fields = more := by
  have hperm := Fields.perm_of_get?_eq h.nodup hmore.nodup heq
  refine hperm.eq_of_pairwise (fun a b _ _ hlt hgt => ?_) (List.pairwise_map.mp h)
    (List.pairwise_map.mp hmore)
  exact absurd hgt (String.lt_asymm hlt)

/-! ### Sorting -/

/-- Fields in the order of their keys. -/
def Fields.sort (fields : Fields) : Fields := fields.mergeSort fun a b => a.1 ≤ b.1

theorem Fields.sort_perm (fields : Fields) : (Fields.sort fields).Perm fields :=
  List.mergeSort_perm _ _

theorem Fields.isSorted_sort (h : (fields.map Prod.fst).Nodup) :
    Fields.IsSorted (Fields.sort fields) := by
  have hle : (Fields.sort fields).Pairwise fun a b => decide (a.1 ≤ b.1) = true := by
    refine List.pairwise_mergeSort (fun a b c hab hbc => ?_) (fun a b => ?_) fields
    · exact decide_eq_true (String.le_trans (of_decide_eq_true hab) (of_decide_eq_true hbc))
    · simpa using String.le_total a.1 b.1
  have hnodup : ((Fields.sort fields).map Prod.fst).Pairwise (· ≠ ·) :=
    ((Fields.sort_perm fields).map _).nodup_iff.mpr h
  rw [Fields.IsSorted, List.pairwise_map]
  refine (hle.and (List.pairwise_map.mp hnodup)).imp fun hboth => ?_
  refine Decidable.byContradiction fun hnot => hboth.2 ?_
  exact String.le_antisymm (of_decide_eq_true hboth.1) (String.not_lt.mp hnot)

theorem Fields.get?_sort (h : (fields.map Prod.fst).Nodup) (key : String) :
    Fields.get? (Fields.sort fields) key = Fields.get? fields key := by
  have hsort := (Fields.isSorted_sort h).nodup
  refine Option.ext fun value => ?_
  rw [Fields.get?_eq_some_iff hsort, Fields.get?_eq_some_iff h,
    (Fields.sort_perm fields).mem_iff]

theorem Fields.sort_eq_self (h : Fields.IsSorted fields) : Fields.sort fields = fields :=
  Fields.eq_of_get?_eq (Fields.isSorted_sort h.nodup) h (Fields.get?_sort h.nodup)

mutual

/-- A value with the fields of every object in it in the order of their keys. -/
def Value.sorted : Value → Value
  | .array items => .array (Value.sortedItems items)
  | .object fields => .object (Fields.sort (Value.sortedFields fields))
  | value => value

def Value.sortedItems : List Value → List Value
  | [] => []
  | item :: items => item.sorted :: Value.sortedItems items

def Value.sortedFields : List (String × Value) → List (String × Value)
  | [] => []
  | (key, value) :: fields => (key, value.sorted) :: Value.sortedFields fields

end

theorem Value.sorted_array (items : List Value) :
    (Value.array items).sorted = .array (items.map Value.sorted) := by
  rw [Value.sorted]
  congr 1
  induction items with
  | nil => rfl
  | cons item items ih => rw [Value.sortedItems, ih, List.map_cons]

theorem Value.sortedFields_eq_map (fields : Fields) :
    Value.sortedFields fields = fields.map fun field => (field.1, field.2.sorted) := by
  induction fields with
  | nil => rfl
  | cons field fields ih => rw [Value.sortedFields, ih, List.map_cons]

theorem Value.map_fst_sortedFields (fields : Fields) :
    (Value.sortedFields fields).map Prod.fst = fields.map Prod.fst := by
  rw [Value.sortedFields_eq_map, List.map_map]
  rfl

theorem Value.get?_sortedFields (fields : Fields) (key : String) :
    Fields.get? (Value.sortedFields fields) key = (Fields.get? fields key).map Value.sorted := by
  induction fields with
  | nil => rfl
  | cons field fields ih =>
      obtain ⟨first, value⟩ := field
      rw [Value.sortedFields, Fields.get?_cons, Fields.get?_cons, ih]
      split <;> rfl

/-- Sorted fields are the sorted form of others if whatever is looked up in them is. -/
theorem Value.sorted_object (hfields : (fields.map Prod.fst).Nodup)
    (hmore : Fields.IsSorted more)
    (hlookup : ∀ key, Fields.get? more key = (Fields.get? fields key).map Value.sorted) :
    (Value.object fields).sorted = .object more := by
  have hnodup : ((Value.sortedFields fields).map Prod.fst).Nodup := by
    rwa [Value.map_fst_sortedFields]
  rw [Value.sorted]
  congr 1
  refine Fields.eq_of_get?_eq (Fields.isSorted_sort hnodup) hmore fun key => ?_
  rw [Fields.get?_sort hnodup, Value.get?_sortedFields, hlookup]

/-- What was read is sorted. -/
theorem Value.IsRead.sorted_eq (h : value.IsRead) : value.sorted = value := by
  induction h with
  | null | bool | integer | double | string => rfl
  | array _ ih => rw [Value.sorted_array, List.map_congr_left ih, List.map_id']
  | @object fields hsorted _ ih =>
      have hfields : ∀ field ∈ fields, (field.1, field.2.sorted) = field :=
        fun field hmem => Prod.ext rfl (ih field hmem)
      rw [Value.sorted, Value.sortedFields_eq_map, List.map_congr_left hfields, List.map_id',
        Fields.sort_eq_self hsorted]

end FlexFold.Json
