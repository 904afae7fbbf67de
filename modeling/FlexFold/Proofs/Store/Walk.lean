import FlexFold.Store.Basic

/-!
Walks by rules. `Arrives` gives the walk that ends at a spot, `Leads` the part of a walk that goes
through directories and stops before its last steps; what a walk does after that part depends only
on where the part has led to.
-/

namespace FlexFold.Store

variable {store : Store} {follow : Bool} {links left : Nat} {here there : Location}
  {name : String} {target : Path} {steps rest : List Stride} {spot : Spot}

/-! ### Arriving -/

/-- From `here` the steps lead to a spot, over at most `links` links. -/
inductive Arrives (store : Store) (follow : Bool) :
    Nat → Location → List Stride → Spot → Prop where
  | here (links : Nat) (here : Location) :
      Arrives store follow links here [] (.entry here .directory)
  | stay {links : Nat} {here : Location} {rest : List Stride} {spot : Spot} :
      Arrives store follow links here rest spot →
      Arrives store follow links here (.stay :: rest) spot
  | up {links : Nat} {here : Location} {rest : List Stride} {spot : Spot} :
      Arrives store follow links here.dropLast rest spot →
      Arrives store follow links here (.up :: rest) spot
  | enter {links : Nat} {here : Location} {name : String} {rest : List Stride} {spot : Spot}
      (hname : ¬ nameLimit ≤ name.utf8ByteSize)
      (hentry : store.entry? (here ++ [name]) = some .directory) :
      Arrives store follow links (here ++ [name]) rest spot →
      Arrives store follow links here (.down name :: rest) spot
  | free (links : Nat) {here : Location} {name : String}
      (hname : ¬ nameLimit ≤ name.utf8ByteSize)
      (hentry : store.entry? (here ++ [name]) = none) :
      Arrives store follow links here [.down name] (.free (here ++ [name]))
  | file (links : Nat) {here : Location} {name : String} {bytes : ByteArray}
      (hname : ¬ nameLimit ≤ name.utf8ByteSize)
      (hentry : store.entry? (here ++ [name]) = some (.file bytes)) :
      Arrives store follow links here [.down name] (.entry (here ++ [name]) (.file bytes))
  | link (links : Nat) {here : Location} {name : String} {target : Path}
      (hfollow : follow = false) (hname : ¬ nameLimit ≤ name.utf8ByteSize)
      (hentry : store.entry? (here ++ [name]) = some (.link target)) :
      Arrives store follow links here [.down name] (.entry (here ++ [name]) (.link target))
  | jump {links : Nat} {here : Location} {name : String} {target : Path} {rest : List Stride}
      {spot : Spot} (hgo : rest ≠ [] ∨ follow = true)
      (hname : ¬ nameLimit ≤ name.utf8ByteSize)
      (hentry : store.entry? (here ++ [name]) = some (.link target)) :
      Arrives store follow links (if target.isAbsolute then [] else here)
        (strides target ++ rest) spot →
      Arrives store follow (links + 1) here (.down name :: rest) spot

theorem walk_nil : store.walk follow links here [] = .ok (.entry here .directory) := by
  cases links <;> rfl

theorem walk_stay :
    store.walk follow links here (.stay :: rest) = store.walk follow links here rest := by
  cases links <;> rfl

theorem walk_up :
    store.walk follow links here (.up :: rest) = store.walk follow links here.dropLast rest := by
  cases links <;> rfl

theorem walk_down (hname : ¬ nameLimit ≤ name.utf8ByteSize) :
    store.walk follow links here (.down name :: rest) =
      match store.entry? (here ++ [name]) with
      | none => if rest = [] then .ok (.free (here ++ [name])) else .error .noEntry
      | some .directory => store.walk follow links (here ++ [name]) rest
      | some (.file bytes) =>
          if rest = [] then .ok (.entry (here ++ [name]) (.file bytes)) else .error .notDirectory
      | some (.link target) =>
          if rest = [] ∧ !follow then .ok (.entry (here ++ [name]) (.link target))
          else
            match links with
            | 0 => .error .tooManyLinks
            | links + 1 =>
                store.walk follow links (if target.isAbsolute then [] else here)
                  (strides target ++ rest) := by
  cases links <;> exact if_neg hname

theorem Arrives.walk_eq (h : Arrives store follow links here steps spot) :
    store.walk follow links here steps = .ok spot := by
  induction h with
  | here => exact walk_nil
  | stay _ ih => rw [walk_stay, ih]
  | up _ ih => rw [walk_up, ih]
  | enter hname hentry _ ih =>
      rw [walk_down hname, hentry]
      exact ih
  | free _ hname hentry =>
      rw [walk_down hname, hentry]
      rfl
  | file _ hname hentry =>
      rw [walk_down hname, hentry]
      rfl
  | link _ hfollow hname hentry =>
      rw [walk_down hname, hentry, hfollow]
      rfl
  | jump hgo hname hentry _ ih =>
      rw [walk_down hname, hentry]
      dsimp only
      rw [if_neg (by rcases hgo with h | h <;> simp [h]), ih]

theorem arrives_of_walk (h : store.walk follow links here steps = .ok spot) :
    Arrives store follow links here steps spot := by
  -- A link uses up one of the links that may be followed, any other step one of the steps.
  induction links using Nat.strongRecOn generalizing here steps with
  | ind links fewer =>
    induction steps generalizing here with
    | nil =>
        rw [walk_nil] at h
        obtain rfl := Except.ok.inj h
        exact .here links here
    | cons step rest ih =>
        cases step with
        | stay => exact .stay (ih (walk_stay ▸ h))
        | up => exact .up (ih (walk_up ▸ h))
        | down name =>
            by_cases hname : nameLimit ≤ name.utf8ByteSize
            · cases links <;> simp [walk, walkWith, hname] at h
            rw [walk_down hname] at h
            cases hentry : store.entry? (here ++ [name]) with
            | none =>
                by_cases hrest : rest = []
                · simp only [hentry, if_pos hrest, Except.ok.injEq] at h
                  rw [hrest, ← h]
                  exact .free links hname hentry
                · simp [hentry, hrest] at h
            | some entry =>
                cases entry with
                | directory => exact .enter hname hentry (ih (by simpa only [hentry] using h))
                | file bytes =>
                    by_cases hrest : rest = []
                    · simp only [hentry, if_pos hrest, Except.ok.injEq] at h
                      rw [hrest, ← h]
                      exact .file links hname hentry
                    · simp [hentry, hrest] at h
                | link target =>
                    by_cases hstop : rest = [] ∧ (!follow) = true
                    · simp only [hentry, if_pos hstop, Except.ok.injEq] at h
                      rw [hstop.1, ← h]
                      exact .link links (by simpa using hstop.2) hname hentry
                    · simp only [hentry, if_neg hstop] at h
                      cases links with
                      | zero => simp at h
                      | succ links =>
                          refine .jump ?_ hname hentry (fewer links (Nat.lt_succ_self links) h)
                          by_cases hrest : rest = []
                          · exact .inr (by simpa [hrest] using hstop)
                          · exact .inl hrest

theorem arrives_iff :
    Arrives store follow links here steps spot ↔
      store.walk follow links here steps = .ok spot :=
  ⟨Arrives.walk_eq, arrives_of_walk⟩

/-- A walk that may follow more links ends at the same spot. -/
theorem Arrives.mono {more : Nat} (h : Arrives store follow links here steps spot)
    (hle : links ≤ more) : Arrives store follow more here steps spot := by
  induction h generalizing more with
  | here => exact .here _ _
  | stay _ ih => exact .stay (ih hle)
  | up _ ih => exact .up (ih hle)
  | enter hname hentry _ ih => exact .enter hname hentry (ih hle)
  | free _ hname hentry => exact .free _ hname hentry
  | file _ hname hentry => exact .file _ hname hentry
  | link _ hfollow hname hentry => exact .link _ hfollow hname hentry
  | jump hgo hname hentry _ ih =>
      obtain ⟨more, rfl⟩ : ∃ n, more = n + 1 := Nat.exists_eq_add_one.mpr (by omega)
      exact .jump hgo hname hentry (ih (by omega))

theorem Arrives.unique {other : Spot} (h : Arrives store follow links here steps spot)
    (h' : Arrives store follow left here steps other) : spot = other := by
  have hspot := arrives_iff.mp (h.mono (Nat.le_max_left links left))
  have hother := arrives_iff.mp (h'.mono (Nat.le_max_right links left))
  exact Except.ok.inj (hspot.symm.trans hother)

/-! ### Arriving through directories -/

/-- From `here` the steps lead through directories to `there`. Of `links` links that may be
followed, `left` remain. -/
inductive Leads (store : Store) : Nat → Location → List Stride → Nat → Location → Prop where
  | done (links : Nat) (here : Location) : Leads store links here [] links here
  | stay {links left : Nat} {here there : Location} {rest : List Stride} :
      Leads store links here rest left there →
      Leads store links here (.stay :: rest) left there
  | up {links left : Nat} {here there : Location} {rest : List Stride} :
      Leads store links here.dropLast rest left there →
      Leads store links here (.up :: rest) left there
  | enter {links left : Nat} {here there : Location} {name : String} {rest : List Stride}
      (hname : ¬ nameLimit ≤ name.utf8ByteSize)
      (hentry : store.entry? (here ++ [name]) = some .directory) :
      Leads store links (here ++ [name]) rest left there →
      Leads store links here (.down name :: rest) left there
  | jump {links left : Nat} {here there : Location} {name : String} {target : Path}
      {rest : List Stride} (hname : ¬ nameLimit ≤ name.utf8ByteSize)
      (hentry : store.entry? (here ++ [name]) = some (.link target)) :
      Leads store links (if target.isAbsolute then [] else here) (strides target ++ rest) left
        there →
      Leads store (links + 1) here (.down name :: rest) left there

theorem Leads.le (h : Leads store links here steps left there) : left ≤ links := by
  induction h with
  | done => exact Nat.le_refl _
  | stay _ ih | up _ ih | enter _ _ _ ih => exact ih
  | jump _ _ _ ih => exact Nat.le_succ_of_le ih

/-- What a walk does after directories depends only on where they have led to. -/
theorem Leads.walk_append (h : Leads store links here steps left there) (hrest : rest ≠ []) :
    store.walk follow links here (steps ++ rest) = store.walk follow left there rest := by
  induction h with
  | done => rfl
  | stay _ ih => rw [List.cons_append, walk_stay, ih]
  | up _ ih => rw [List.cons_append, walk_up, ih]
  | enter hname hentry _ ih =>
      rw [List.cons_append, walk_down hname, hentry]
      exact ih
  | jump hname hentry _ ih =>
      rw [List.cons_append, walk_down hname, hentry]
      dsimp only
      rw [if_neg (by simp [hrest]), ← List.append_assoc, ih]

/-- A walk that may follow no link gets through directories only where none is on the way. -/
theorem Leads.walk_append_zero (h : Leads store links here steps left there)
    (hrest : rest ≠ []) :
    store.walk follow 0 here (steps ++ rest) =
      if left = links then store.walk follow 0 there rest else .error .tooManyLinks := by
  induction h with
  | done => rw [if_pos rfl, List.nil_append]
  | stay _ ih => rw [List.cons_append, walk_stay, ih]
  | up _ ih => rw [List.cons_append, walk_up, ih]
  | enter hname hentry _ ih =>
      rw [List.cons_append, walk_down hname, hentry]
      exact ih
  | jump hname hentry hleads _ =>
      have hfewer := Nat.ne_of_lt (Nat.lt_succ_of_le hleads.le)
      rw [List.cons_append, walk_down hname, hentry, if_neg hfewer]
      dsimp only
      rw [if_neg (by simp [hrest])]

/-- Whatever has steps left goes through directories before. -/
theorem Arrives.exists_leads (hrest : rest ≠ [])
    (h : Arrives store follow links here (steps ++ rest) spot) :
    ∃ left there, Leads store links here steps left there ∧
      Arrives store follow left there rest spot := by
  induction links using Nat.strongRecOn generalizing here steps with
  | ind links fewer =>
    induction steps generalizing here with
    | nil => exact ⟨links, here, .done links here, h⟩
    | cons step steps ih =>
        rw [List.cons_append] at h
        generalize hall : steps ++ rest = all at h
        have hne : all ≠ [] := by simp [← hall, hrest]
        cases h with
        | stay h =>
            obtain ⟨left, there, hleads, harrives⟩ := ih (hall ▸ h)
            exact ⟨left, there, .stay hleads, harrives⟩
        | up h =>
            obtain ⟨left, there, hleads, harrives⟩ := ih (hall ▸ h)
            exact ⟨left, there, .up hleads, harrives⟩
        | enter hname hentry h =>
            obtain ⟨left, there, hleads, harrives⟩ := ih (hall ▸ h)
            exact ⟨left, there, .enter hname hentry hleads, harrives⟩
        | free | file | link => exact absurd rfl hne
        | @jump links _ _ target _ _ hgo hname hentry h =>
            rw [← hall, ← List.append_assoc] at h
            obtain ⟨left, there, hleads, harrives⟩ := fewer links (Nat.lt_succ_self links) h
            exact ⟨left, there, .jump hname hentry hleads, harrives⟩

end FlexFold.Store
