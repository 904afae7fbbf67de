/-!
Maps that remember the order in which their keys were first seen.
-/

namespace FlexFold

/-- An association list in first-seen order. No key occurs twice. -/
structure FirstSeen (κ α : Type) where
  entries : List (κ × α)
  nodup : (entries.map Prod.fst).Nodup
deriving DecidableEq

namespace FirstSeen

variable {κ α : Type}

def empty : FirstSeen κ α := ⟨[], List.nodup_nil⟩

instance : EmptyCollection (FirstSeen κ α) := ⟨empty⟩

instance : Inhabited (FirstSeen κ α) := ⟨empty⟩

def keys (map : FirstSeen κ α) : List κ := map.entries.map Prod.fst

/-- The values in the order of their keys. -/
def values (map : FirstSeen κ α) : List α := map.entries.map Prod.snd

variable [DecidableEq κ]

/-- Replace the value of `key`, or put a new entry at the end. -/
def upsertEntries (key : κ) (f : Option α → α) : List (κ × α) → List (κ × α)
  | [] => [(key, f none)]
  | (k, value) :: rest =>
      if k = key then (k, f (some value)) :: rest
      else (k, value) :: upsertEntries key f rest

theorem map_fst_upsertEntries (key : κ) (f : Option α → α) (entries : List (κ × α)) :
    (upsertEntries key f entries).map Prod.fst =
      if key ∈ entries.map Prod.fst then entries.map Prod.fst
      else entries.map Prod.fst ++ [key] := by
  induction entries with
  | nil => simp [upsertEntries]
  | cons entry rest ih =>
      obtain ⟨k, value⟩ := entry
      by_cases h : k = key
      · simp [upsertEntries, h]
      · have h' : ¬ key = k := fun e => h e.symm
        by_cases hmem : key ∈ rest.map Prod.fst
        · simp only [upsertEntries, if_neg h, List.map_cons, ih, if_pos hmem, List.mem_cons, h',
            false_or]
        · simp only [upsertEntries, if_neg h, List.map_cons, ih, if_neg hmem, List.mem_cons, h',
            false_or, List.cons_append]

/-- Set the value of `key` to `f` of its present value. A new key goes to the end. -/
def upsert (map : FirstSeen κ α) (key : κ) (f : Option α → α) : FirstSeen κ α where
  entries := upsertEntries key f map.entries
  nodup := by
    rw [map_fst_upsertEntries]
    split
    · exact map.nodup
    · next h => exact List.nodup_append.2 ⟨map.nodup, by simp, by
        intro a ha b hb e
        simp only [List.mem_singleton] at hb
        exact h (hb ▸ e ▸ ha)⟩

/-- Set the value of `key`. A key that is present keeps its place. -/
def insert (map : FirstSeen κ α) (key : κ) (value : α) : FirstSeen κ α :=
  map.upsert key fun _ => value

def erase (map : FirstSeen κ α) (key : κ) : FirstSeen κ α where
  entries := map.entries.filter fun entry => entry.1 ≠ key
  nodup := map.nodup.sublist (List.filter_sublist.map Prod.fst)

/-- The value of `key`, if it was seen. -/
def get? (map : FirstSeen κ α) (key : κ) : Option α :=
  (map.entries.find? fun entry => entry.1 = key).map Prod.snd

end FirstSeen

end FlexFold
