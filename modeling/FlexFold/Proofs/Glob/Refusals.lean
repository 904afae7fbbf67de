import FlexFold.Proofs.Glob.Search

/-!
Searches on a system that refuses to list some directories. One that meets no refusal finds what it
would find if nothing were refused.
-/

namespace FlexFold.Glob

variable {store : Store} {refusals : Refusals} {directoriesOnly : Bool} {depth : Nat}
  {components : List Pattern} {here : Reached} {name : Option String}

theorem search_cons (store : Store) (refusals : Refusals) (p : Pattern) (rest : List Pattern)
    (here : Reached) :
    search store refusals (p :: rest) here =
      match p.literal? with
      | some name =>
          if name = "." ∨ name = ".." then
            if here.isDirectory then onward store refusals rest (child here.path name) else []
          else if store.isPresent (child here.path name) then
            onward store refusals rest (child here.path name)
          else []
      | none =>
          if here.isDirectory then
            match entries store refusals here.path with
            | .error e => [.failed e]
            | .ok found =>
                (hiddenNames p).flatMap (fun name =>
                    onward store refusals rest (here.path.join name)) ++
                  found.map fun entry => .pending entry (p :: rest)
          else [] := by
  rw [search]
  rfl

/-- A directory is listed in the same way wherever it is not refused. -/
theorem entries_eq_or (store : Store) (refusals : Refusals) (directory : Path) :
    (∃ e, entries store refusals directory = .error e) ∨
      entries store refusals directory = entries store (fun _ => none) directory := by
  cases hrefusal : refusals directory with
  | some fault => exact .inl ⟨⟨directory, fault⟩, by simp [entries, hrefusal]⟩
  | none => exact .inr (by simp [entries, hrefusal])

theorem search_eq_of_allowed (h : ∀ e, .failed e ∉ search store refusals components here) :
    search store refusals components here = search store (fun _ => none) components here := by
  induction components generalizing here with
  | nil => rfl
  | cons p rest ih =>
      have honward {next : Path} (h : ∀ e, .failed e ∉ onward store refusals rest next) :
          onward store refusals rest next = onward store (fun _ => none) rest next := by
        unfold onward at h ⊢
        split
        · rfl
        · rename_i hrest
          exact ih (by simpa [hrest] using h)
      rw [search_cons] at h ⊢
      rw [search_cons]
      cases hliteral : p.literal? with
      | some name =>
          simp only [hliteral] at h ⊢
          grind only
      | none =>
          simp only [hliteral] at h ⊢
          split
          · rename_i hdirectory
            simp only [hdirectory, if_true] at h
            rcases entries_eq_or store refusals here.path with ⟨e, hfailed⟩ | hsame
            · exact absurd List.mem_cons_self (hfailed ▸ h e)
            · rw [hsame] at h ⊢
              cases hfound : entries store (fun _ => none) here.path with
              | error e => rfl
              | ok found =>
                  simp only [hfound, List.mem_append, List.mem_flatMap, not_or] at h ⊢
                  rw [List.flatMap_def, List.flatMap_def, List.map_congr_left]
                  intro name hname
                  exact honward fun e he => (h e).1 ⟨name, hname, he⟩
          · rfl

section

-- What a run selects comes from below, but for the path that was reached itself.
variable (hbelow : ∀ {components : List Pattern},
  (∀ e, .error e ∉ below store refusals directoriesOnly depth components here) →
    below store refusals directoriesOnly depth components here =
      below store (fun _ => none) directoriesOnly depth components here)

include hbelow

theorem matchedAt_eq_of_allowed
    (h : ∀ e, .error e ∉ matchedAt store refusals directoriesOnly depth components here name) :
    matchedAt store refusals directoriesOnly depth components here name =
      matchedAt store (fun _ => none) directoriesOnly depth components here name := by
  unfold matchedAt at h ⊢
  split
  · rename_i p rest found
    simp only at h
    split
    · rename_i hmatched
      split
      · rfl
      · rename_i hrest
        exact hbelow (by simpa [hmatched, hrest] using h)
    · rfl
  · rfl

theorem repeatedAt_eq_of_allowed {last : Pattern} {after : List Pattern}
    (h : ∀ e, .error e ∉ repeatedAt store refusals directoriesOnly depth last after here name) :
    repeatedAt store refusals directoriesOnly depth last after here name =
      repeatedAt store (fun _ => none) directoriesOnly depth last after here name := by
  unfold repeatedAt at h ⊢
  split
  · rename_i hdirectory
    simp only [hdirectory, if_true] at h
    split
    · rename_i hafter
      simp only [hafter, if_true, List.mem_cons, not_or] at h
      rw [hbelow fun e => (h e).2]
    · rename_i hafter
      simp only [if_neg hafter, List.mem_append, not_or] at h
      rw [hbelow fun e => (h e).2, matchedAt_eq_of_allowed hbelow fun e => (h e).1]
  · rename_i hfile
    simp only [if_neg hfile] at h
    exact matchedAt_eq_of_allowed hbelow h

end

theorem below_eq_of_allowed
    (hrun : ∀ {task : Task}, (∀ e, .error e ∉ run store refusals directoriesOnly depth task) →
      run store refusals directoriesOnly depth task =
        run store (fun _ => none) directoriesOnly depth task)
    (h : ∀ e, .error e ∉ below store refusals directoriesOnly depth components here) :
    below store refusals directoriesOnly depth components here =
      below store (fun _ => none) directoriesOnly depth components here := by
  simp only [below, List.mem_flatMap, not_exists, not_and] at h
  have hsearch : ∀ e, .failed e ∉ search store refusals components here := by
    intro e he
    refine h e _ he ?_
    cases depth <;> exact List.mem_cons_self
  unfold below
  rw [← search_eq_of_allowed hsearch, List.flatMap_def, List.flatMap_def, List.map_congr_left]
  exact fun task htask => hrun fun e => h e task htask

theorem run_eq_of_allowed {task : Task}
    (h : ∀ e, .error e ∉ run store refusals directoriesOnly depth task) :
    run store refusals directoriesOnly depth task =
      run store (fun _ => none) directoriesOnly depth task := by
  induction depth generalizing task with
  | zero => cases task <;> rfl
  | succ depth ih =>
      cases task with
      | failed e => rfl
      | selected here => rfl
      | pending here components =>
          cases components with
          | nil => rfl
          | cons p rest =>
              rw [run_pending] at h ⊢
              rw [run_pending]
              split
              · rename_i hrecursive
                rw [if_pos hrecursive] at h
                cases hdropped : dropRepeated (p :: rest) with
                | nil => rfl
                | cons last after =>
                    simp only [hdropped] at h
                    exact repeatedAt_eq_of_allowed (below_eq_of_allowed ih) h
              · rename_i hother
                rw [if_neg hother] at h
                exact matchedAt_eq_of_allowed (below_eq_of_allowed ih) h

/-- A search that meets no error finds the same on a system that refuses nothing. -/
theorem paths_eq_of_allowed {glob : Glob} (h : ∀ e, .error e ∉ glob.paths store refusals) :
    glob.paths store refusals = glob.paths store :=
  below_eq_of_allowed run_eq_of_allowed h

end FlexFold.Glob
