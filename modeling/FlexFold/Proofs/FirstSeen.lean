import FlexFold.FirstSeen

/-!
What a map in first-seen order holds after updates. Its keys stand in the order in which they were
first updated, and the value of a key depends on the updates of that key alone.
-/

namespace FlexFold

/-! ### First occurrences -/

section

variable {α : Type} [DecidableEq α]

theorem nodup_eraseDups (l : List α) : l.eraseDups.Nodup := by
  match l with
  | [] => simp
  | a :: l =>
      rw [List.eraseDups_cons, List.nodup_cons]
      refine ⟨?_, nodup_eraseDups _⟩
      simp [List.mem_eraseDups]
termination_by l.length
decreasing_by exact Nat.lt_succ_of_le (List.length_filter_le _ _)

theorem filter_ne_eq_self {l : List α} {a : α} (h : a ∉ l) : (l.filter fun b => !b == a) = l := by
  rw [List.filter_eq_self]
  intro b hb
  have hne : b ≠ a := fun heq => h (heq ▸ hb)
  simpa using hne

theorem eraseDups_of_nodup {l : List α} (h : l.Nodup) : l.eraseDups = l := by
  induction l with
  | nil => rfl
  | cons a l ih =>
      obtain ⟨ha, hl⟩ := List.nodup_cons.mp h
      rw [List.eraseDups_cons, filter_ne_eq_self ha, ih hl]

theorem filter_eraseDups (p : α → Bool) (l : List α) :
    l.eraseDups.filter p = (l.filter p).eraseDups := by
  match l with
  | [] => rfl
  | a :: l =>
      have ih := filter_eraseDups p (l.filter fun b => !b == a)
      have hcomm : ((l.filter fun b => !b == a).filter p) =
          (l.filter p).filter fun b => !b == a := by
        rw [List.filter_filter, List.filter_filter]
        congr 1
        funext b
        exact Bool.and_comm ..
      rw [hcomm] at ih
      rw [List.eraseDups_cons]
      by_cases ha : p a
      · rw [List.filter_cons_of_pos ha, List.filter_cons_of_pos ha, ih, List.eraseDups_cons]
      · have hmem : a ∉ l.filter p := fun h => ha (List.mem_filter.mp h).2
        rw [List.filter_cons_of_neg ha, List.filter_cons_of_neg ha, ih, filter_ne_eq_self hmem]
termination_by l.length
decreasing_by exact Nat.lt_succ_of_le (List.length_filter_le _ _)

/-- What is there already leaves no trace. -/
theorem eraseDups_append_cons_of_mem {l : List α} {a : α} (h : a ∈ l) (more : List α) :
    (l ++ a :: more).eraseDups = (l ++ more).eraseDups := by
  rw [List.eraseDups_append, List.eraseDups_append, List.removeAll, List.removeAll,
    List.filter_cons_of_neg (by simpa using h)]

theorem eraseDups_append_eraseDups (l more : List α) :
    (l ++ more.eraseDups).eraseDups = (l ++ more).eraseDups := by
  rw [List.eraseDups_append, List.eraseDups_append, List.removeAll, List.removeAll,
    filter_eraseDups, eraseDups_of_nodup (nodup_eraseDups _)]

theorem eraseDups_eraseDups_append (l more : List α) :
    (l.eraseDups ++ more).eraseDups = (l ++ more).eraseDups := by
  have hmem : ∀ a, l.eraseDups.elem a = l.elem a := by
    intro a
    rw [Bool.eq_iff_iff, List.elem_iff, List.elem_iff, List.mem_eraseDups]
  rw [List.eraseDups_append, List.eraseDups_append, List.removeAll, List.removeAll,
    eraseDups_of_nodup (nodup_eraseDups l)]
  simp only [hmem]

theorem eraseDups_concat (l : List α) (a : α) :
    (l ++ [a]).eraseDups = if a ∈ l then l.eraseDups else l.eraseDups ++ [a] := by
  split
  · next h => rw [eraseDups_append_cons_of_mem h, List.append_nil]
  · next h =>
      rw [List.eraseDups_append, List.removeAll, List.filter_cons_of_pos (by simpa using h)]
      rfl

/-- What comes first is all there, and only what comes second follows. -/
theorem exists_eraseDups_append (l more : List α) :
    ∃ further, (l ++ more).eraseDups = l.eraseDups ++ further ∧ ∀ a ∈ further, a ∈ more := by
  refine ⟨(more.removeAll l).eraseDups, List.eraseDups_append, fun a ha => ?_⟩
  exact (List.mem_filter.mp (List.mem_eraseDups.mp ha)).1

/-- A function may tell fewer values apart, but it meets each of them first where they first
occur. -/
theorem eraseDups_map_eraseDups_append {β : Type} [DecidableEq β] (f : α → β) (l : List α)
    (more : List β) : (l.eraseDups.map f ++ more).eraseDups = (l.map f ++ more).eraseDups := by
  -- It is the last element that may be erased, so the induction is on the reversed list.
  suffices h : ∀ back : List α, ∀ more, (back.reverse.eraseDups.map f ++ more).eraseDups =
      (back.reverse.map f ++ more).eraseDups by
    simpa using h l.reverse more
  intro back
  induction back with
  | nil => exact fun _ => rfl
  | cons a back ih =>
      intro more
      rw [List.reverse_cons, eraseDups_concat, List.map_append, List.append_assoc,
        List.map_singleton, List.singleton_append]
      split
      · next h => rw [ih, eraseDups_append_cons_of_mem (List.mem_map_of_mem h)]
      · rw [List.map_append, List.append_assoc, List.map_singleton, List.singleton_append, ih]

end

namespace FirstSeen

variable {κ α β : Type} [DecidableEq κ]

/-! ### One update -/

theorem find?_upsertEntries (key k : κ) (f : Option α → α) (entries : List (κ × α)) :
    ((upsertEntries key f entries).find? fun entry => entry.1 = k).map Prod.snd =
      if k = key then some (f ((entries.find? fun entry => entry.1 = key).map Prod.snd))
      else (entries.find? fun entry => entry.1 = k).map Prod.snd := by
  induction entries with
  | nil =>
      by_cases h : key = k
      · simp [upsertEntries, h]
      · simp [upsertEntries, h, Ne.symm h]
  | cons entry rest ih =>
      obtain ⟨first, value⟩ := entry
      by_cases hfirst : first = key
      · by_cases h : key = k
        · simp [upsertEntries, hfirst, h]
        · simp [upsertEntries, hfirst, h, Ne.symm h]
      · by_cases h : first = k
        · simp [upsertEntries, h, show ¬ k = key from h ▸ hfirst]
        · simp [upsertEntries, hfirst, h, ih]

theorem get?_insert (map : FirstSeen κ α) (key k : κ) (value : α) :
    (map.insert key value).get? k = if k = key then some value else map.get? k :=
  find?_upsertEntries key k _ map.entries

theorem get?_erase (map : FirstSeen κ α) (key k : κ) :
    (map.erase key).get? k = if k = key then none else map.get? k := by
  unfold get? erase
  rw [List.find?_filter]
  by_cases h : k = key
  · rw [if_pos h, Option.map_eq_none_iff, List.find?_eq_none]
    simp [h]
  · rw [if_neg h]
    congr 2
    funext entry
    by_cases hentry : entry.1 = k
    · simp [hentry, h]
    · simp [hentry]

theorem get?_upsert (map : FirstSeen κ α) (key k : κ) (f : Option α → α) :
    (map.upsert key f).get? k = if k = key then some (f (map.get? key)) else map.get? k :=
  find?_upsertEntries key k f map.entries

theorem keys_upsert (map : FirstSeen κ α) (key : κ) (f : Option α → α) :
    (map.upsert key f).keys = if key ∈ map.keys then map.keys else map.keys ++ [key] :=
  map_fst_upsertEntries key f map.entries

theorem upsertEntries_eq_self {key : κ} {f : Option α → α} {value : α}
    (hf : f (some value) = value) {entries : List (κ × α)}
    (h : (entries.find? fun entry => entry.1 = key).map Prod.snd = some value) :
    upsertEntries key f entries = entries := by
  induction entries with
  | nil => simp at h
  | cons entry entries ih =>
      obtain ⟨first, v⟩ := entry
      rw [upsertEntries]
      by_cases hfirst : first = key
      · rw [List.find?_cons_of_pos (by simpa using hfirst)] at h
        obtain rfl : v = value := Option.some.inj h
        rw [if_pos hfirst, hf]
      · rw [List.find?_cons_of_neg (by simpa using hfirst)] at h
        rw [if_neg hfirst, ih h]

/-- Nothing changes if a key gets the value that it has. -/
theorem insert_eq_self {map : FirstSeen κ α} {key : κ} {value : α}
    (h : map.get? key = some value) : map.insert key value = map := by
  obtain ⟨entries, hnodup⟩ := map
  simp only [insert, upsert, FirstSeen.mk.injEq]
  exact upsertEntries_eq_self rfl h

/-- A key that was not seen before goes to the end. -/
theorem upsertEntries_of_notMem {key : κ} (f : Option α → α) {entries : List (κ × α)}
    (h : key ∉ entries.map Prod.fst) :
    upsertEntries key f entries = entries ++ [(key, f none)] := by
  induction entries with
  | nil => rfl
  | cons entry entries ih =>
      rw [List.map_cons, List.mem_cons, not_or] at h
      rw [upsertEntries, if_neg (Ne.symm h.1), ih h.2, List.cons_append]

theorem entries_insert {map : FirstSeen κ α} {key : κ} (h : key ∉ map.keys) (value : α) :
    (map.insert key value).entries = map.entries ++ [(key, value)] :=
  upsertEntries_of_notMem _ h

omit [DecidableEq κ] in
theorem eq_of_entries_eq {map other : FirstSeen κ α} (h : map.entries = other.entries) :
    map = other := by
  cases map
  cases other
  congr

/-! ### Looking up -/

theorem mem_entries_iff (map : FirstSeen κ α) (key : κ) (value : α) :
    (key, value) ∈ map.entries ↔ map.get? key = some value := by
  obtain ⟨entries, hnodup⟩ := map
  simp only [get?]
  induction entries with
  | nil => simp
  | cons entry entries ih =>
      obtain ⟨first, v⟩ := entry
      obtain ⟨hfirst, hrest⟩ := List.nodup_cons.mp hnodup
      by_cases hkey : first = key
      · have hnot : (key, value) ∉ entries := by
          intro hmem
          rw [hkey] at hfirst
          exact hfirst (List.mem_map.mpr ⟨_, hmem, rfl⟩)
        simp [hkey, hnot, eq_comm]
      · simp [hkey, Ne.symm hkey, ih hrest]

theorem filter_entries (map : FirstSeen κ α) (key : κ) :
    (map.entries.filter fun entry => entry.1 = key) =
      ((map.get? key).map fun value => (key, value)).toList := by
  obtain ⟨entries, hnodup⟩ := map
  simp only [get?]
  induction entries with
  | nil => rfl
  | cons entry entries ih =>
      obtain ⟨first, v⟩ := entry
      obtain ⟨hfirst, hrest⟩ := List.nodup_cons.mp hnodup
      by_cases hkey : first = key
      · have hnone : (entries.filter fun entry => entry.1 = key) = [] := by
          rw [List.filter_eq_nil_iff]
          intro other hother heq
          have hfst : other.1 = first := (of_decide_eq_true heq).trans hkey.symm
          exact hfirst (List.mem_map.mpr ⟨other, hother, hfst⟩)
        simp [hkey, hnone]
      · simpa [hkey] using ih hrest

/-! ### Updates one after the other -/

/-- The keys of the updates come after those that were there, each at its first occurrence. -/
theorem keys_foldl_upsert (key : β → κ) (f : β → Option α → α) (items : List β)
    (map : FirstSeen κ α) :
    (items.foldl (fun map item => map.upsert (key item) (f item)) map).keys =
      (map.keys ++ items.map key).eraseDups := by
  induction items generalizing map with
  | nil =>
      rw [List.map_nil, List.append_nil]
      exact (eraseDups_of_nodup map.nodup).symm
  | cons item items ih =>
      rw [List.foldl_cons, ih, keys_upsert, List.map_cons]
      split
      · next h => rw [eraseDups_append_cons_of_mem h]
      · rw [List.append_assoc, List.singleton_append]

/-- Only the updates of a key change its value. -/
theorem get?_foldl_upsert (key : β → κ) (f : β → Option α → α) (items : List β)
    (map : FirstSeen κ α) (k : κ) :
    (items.foldl (fun map item => map.upsert (key item) (f item)) map).get? k =
      (items.filter fun item => key item = k).foldl (fun value item => some (f item value))
        (map.get? k) := by
  induction items generalizing map with
  | nil => rfl
  | cons item items ih =>
      rw [List.foldl_cons, ih, get?_upsert]
      by_cases h : key item = k
      · rw [List.filter_cons_of_pos (by simpa using h), List.foldl_cons, if_pos h.symm, h]
      · rw [List.filter_cons_of_neg (by simpa using h), if_neg (Ne.symm h)]

/-- A map whose entries update another one updates the value of each of its keys once. -/
theorem get?_foldl_entries (f : β → Option α → α) (other : FirstSeen κ β) (map : FirstSeen κ α)
    (k : κ) :
    (other.entries.foldl (fun map entry => map.upsert entry.1 (f entry.2)) map).get? k =
      match other.get? k with
      | none => map.get? k
      | some b => some (f b (map.get? k)) := by
  rw [get?_foldl_upsert Prod.fst fun entry => f entry.2, filter_entries]
  cases other.get? k <;> rfl

end FirstSeen

end FlexFold
