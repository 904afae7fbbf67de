import FlexFold.Proofs.Store.Entries
import FlexFold.Proofs.Store.Way

/-!
What the tasks on a store do. Making directories adds directories where nothing stood; a file that
is written under a temporary name and then renamed takes one place and leaves another one empty,
and nothing else changes.
-/

namespace FlexFold.Store

variable {store origin made after : Store} {follow : Bool} {path : Path}
  {location place temp : Location} {bytes : ByteArray}

/-! ### Steps of a task -/

theorem Task.bind_eq_ok_iff {ε α β : Type} {x : Task ε α} {f : α → Task ε β} {b : β} :
    (x >>= f) store = .ok b after ↔
      ∃ a middle, x store = .ok a middle ∧ f a middle = .ok b after := by
  change EStateM.bind x f store = _ ↔ _
  unfold EStateM.bind
  cases x store with
  | error e middle => simp
  | ok a middle => simp only [EStateM.Result.ok.injEq, and_assoc, exists_eq_left', exists_and_left]

theorem Task.ofStep_eq_ok_iff {step : Store → Except StoreFault Store} {u : Unit} :
    Task.ofStep step store = .ok u after ↔ step store = .ok after := by
  unfold Task.ofStep
  cases step store <;> simp

/-! ### Directories -/

theorem Arrives.free_entry {links : Nat} {here : Location} {steps : List Stride}
    (h : Arrives store follow links here steps (.free location)) :
    location ≠ [] ∧ store.entry? location = none := by
  generalize hspot : Spot.free location = spot at h
  induction h with
  | free _ _ hentry =>
      obtain rfl := Spot.free.inj hspot
      exact ⟨by simp, hentry⟩
  | here | file | link => cases hspot
  | stay _ ih | up _ ih | enter _ _ _ ih | jump _ _ _ _ ih => exact ih hspot

/-- What a store has become after directories were made: each of them stands where nothing
stood. -/
structure Extends (store made : Store) : Prop where
  workingDirectory : made.workingDirectory = store.workingDirectory
  entry : ∀ x, made.entry? x = store.entry? x ∨
    (store.entry? x = none ∧ made.entry? x = some .directory)

theorem Extends.refl (store : Store) : Extends store store := ⟨rfl, fun _ => .inl rfl⟩

theorem Extends.trans {last : Store} (h : Extends store made) (h' : Extends made last) :
    Extends store last := by
  refine ⟨h'.workingDirectory.trans h.workingDirectory, fun x => ?_⟩
  rcases h.entry x with hsame | ⟨hnone, hmade⟩
  · rw [← hsame]
    exact h'.entry x
  · rcases h'.entry x with hsame | ⟨hnot, -⟩
    · exact .inr ⟨hnone, hsame.trans hmade⟩
    · simp [hmade] at hnot

theorem Extends.entry_of_some (h : Extends store made) {x : Location} {entry : Entry}
    (hentry : store.entry? x = some entry) : made.entry? x = some entry := by
  rcases h.entry x with hsame | ⟨hnone, -⟩
  · exact hsame.trans hentry
  · simp [hnone] at hentry

theorem Extends.grown (h : Extends store made) (hgrown : Grown origin store) :
    Grown origin made where
  workingDirectory := h.workingDirectory.trans hgrown.workingDirectory
  directory x hx := h.entry_of_some (hgrown.directory x hx)
  link x target hx := by
    rcases h.entry x with hsame | ⟨-, hmade⟩
    · exact hgrown.link x target (hsame.symm.trans hx)
    · simp [hmade] at hx
  replaced x target hx := by
    rcases hgrown.replaced x target hx with hlink | ⟨bytes, hfile⟩
    · exact .inl (h.entry_of_some hlink)
    · exact .inr ⟨bytes, h.entry_of_some hfile⟩

theorem extends_of_makeDirectory (h : store.makeDirectory path = .ok made) :
    Extends store made := by
  unfold makeDirectory at h
  split at h
  · simp at h
  · rename_i location hlocate
    obtain rfl := Except.ok.inj h
    obtain ⟨hroot, hnone⟩ := (locate_eq_ok_iff.mp hlocate).2.free_entry
    refine ⟨rfl, fun x => ?_⟩
    rw [entry?_put hroot]
    by_cases hx : x = location
    · rw [if_pos hx, hx]
      exact .inr ⟨hnone, rfl⟩
    · rw [if_neg hx]
      exact .inl rfl
  · simp at h

theorem extends_of_makeChain {paths : List Path} (h : makeChain paths store = .ok () made) :
    Extends store made := by
  induction paths generalizing made with
  | nil =>
      cases h
      exact .refl store
  | cons path above ih =>
      rw [makeChain] at h
      dsimp only at h
      split at h
      · rename_i hmake
        cases h
        exact extends_of_makeDirectory hmake
      · split at h
        · cases h
        · rename_i middle hchain
          have habove := ih hchain
          split at h
          · rename_i hmake
            cases h
            exact habove.trans (extends_of_makeDirectory hmake)
          · split at h
            · cases h
              exact habove
            · cases h
      · split at h
        · cases h
          exact .refl store
        · cases h

/-! ### Files -/

theorem strides_eq_of_getLast?_ne (h : path.text.toList.getLast? ≠ some '/') :
    strides path = (path.pieces.filter (· ≠ [])).map Stride.ofPiece := by
  rw [strides, if_neg h, List.append_nil]

/-- The directory and the name where a rename puts an entry. -/
theorem stands_of_locateParent {there : Location} {name : String}
    (h : store.locateParent path = .ok (there, .down name))
    (hname : ¬ nameLimit ≤ name.utf8ByteSize) (hslash : path.text.toList.getLast? ≠ some '/') :
    Stands store path (there ++ [name]) := by
  unfold locateParent at h
  split at h
  · simp at h
  · rename_i hcheck
    rw [← strides_eq_of_getLast?_ne hslash] at h
    dsimp only at h
    split at h
    · simp at h
    · rename_i last hlast
      split at h
      · simp at h
      · rename_i location hwalk
        obtain ⟨rfl, rfl⟩ := Prod.mk.inj (Except.ok.inj h)
        obtain ⟨before, hstrides⟩ := List.getLast?_eq_some_iff.mp hlast
        rw [hstrides, List.dropLast_concat] at hwalk
        by_cases hbefore : before = []
        · rw [if_pos hbefore, walk_nil] at hwalk
          obtain ⟨rfl, -⟩ := Spot.entry.inj (Except.ok.inj hwalk)
          rw [hbefore] at hstrides
          exact .intro hcheck hstrides hname (.done _ _)
        · rw [if_neg hbefore] at hwalk
          obtain ⟨left, there, hleads, harrives⟩ :=
            (arrives_of_walk hwalk).exists_leads (by simp)
          cases harrives with
          | stay harrives =>
              cases harrives
              exact .intro hcheck hstrides hname hleads
      · simp at h
      · simp at h

/-- The other way round: the place that a path names has its last name in a directory. -/
theorem Stands.locateParent_eq (h : Stands store path place) :
    ∃ there name, place = there ++ [name] ∧ store.locateParent path = .ok (there, .down name) ∧
      ¬ nameLimit ≤ name.utf8ByteSize ∧ path.text.toList.getLast? ≠ some '/' := by
  cases h with
  | @intro before name left there hcheck hstrides hname hleads =>
      have hslash : path.text.toList.getLast? ≠ some '/' := by
        intro hslash
        have hlast := congrArg List.getLast? hstrides
        simp [strides, hslash] at hlast
      refine ⟨there, name, rfl, ?_, hname, hslash⟩
      rw [locateParent, hcheck]
      dsimp only
      rw [← strides_eq_of_getLast?_ne hslash, hstrides, List.getLast?_concat]
      dsimp only
      rw [List.dropLast_concat]
      by_cases hbefore : before = []
      · rw [hbefore] at hleads
        cases hleads
        rw [if_pos hbefore, walk_nil]
      · rw [if_neg hbefore, hleads.walk_append (by simp), walk_stay, walk_nil]

/-- A file that is written where no link stands. -/
theorem writeFile_eq_ok_iff (hlink : ∀ temp, Stands store path temp →
      ∀ target, store.entry? temp ≠ some (.link target)) :
    store.writeFile path bytes = .ok made ↔
      ∃ temp, Stands store path temp ∧
        (∀ entry, store.entry? temp = some entry → ∃ bytes, entry = .file bytes) ∧
        made = store.put temp (.file bytes) := by
  constructor
  · intro h
    have hstands : ∃ temp, Stands store path temp := by
      unfold writeFile at h
      split at h
      · simp at h
      · rename_i hlocate
        exact exists_stands hlocate (by simp)
      · rename_i hlocate
        exact exists_stands hlocate (by simp)
      · simp at h
    obtain ⟨temp, hstands⟩ := hstands
    rw [writeFile, hstands.locate (.inr (hlink temp hstands)), spotAt] at h
    refine ⟨temp, hstands, ?_⟩
    cases hentry : store.entry? temp with
    | none =>
        simp only [hentry] at h
        exact ⟨by simp, (Except.ok.inj h).symm⟩
    | some entry =>
        cases entry with
        | file old =>
            simp only [hentry] at h
            exact ⟨by simp, (Except.ok.inj h).symm⟩
        | directory | link target => simp [hentry] at h
  · rintro ⟨temp, hstands, hfree, rfl⟩
    rw [writeFile, hstands.locate (.inr (hlink temp hstands)), spotAt]
    cases hentry : store.entry? temp with
    | none => rfl
    | some entry =>
        obtain ⟨old, rfl⟩ := hfree entry hentry
        rfl

/-- What is no directory is renamed to the place that a path names, unless a directory stands
there. A rename to its own place is none. -/
theorem rename_eq_ok_iff {old : Path} {source : Location} {entry : Entry}
    (hold : Stands store old source) (hentry : store.entry? source = some entry)
    (hnot : entry ≠ .directory) :
    rename old path store = .ok after ↔
      ∃ place, Stands store path place ∧ store.entry? place ≠ some .directory ∧
        after = if place = source then store else (store.remove source).put place entry := by
  have hlocate : store.locate false old = .ok (.entry source entry) := by
    rw [hold.locate (.inl rfl), spotAt, hentry]
  cases entry with
  | directory => exact absurd rfl hnot
  | file | link =>
      rw [rename, hlocate]
      dsimp only
      constructor
      · intro h
        split at h
        · simp at h
        · rename_i there name hparent
          split at h
          · simp at h
          · rename_i hname
            split at h
            · simp at h
            · rename_i hslash
              split at h
              · simp at h
              · rename_i hfree
                refine ⟨_, stands_of_locateParent hparent hname hslash, hfree, ?_⟩
                split at h
                · rename_i hsame
                  rw [if_pos hsame, Except.ok.inj h]
                · rename_i hother
                  rw [if_neg hother, Except.ok.inj h]
        · simp at h
      · rintro ⟨place, hplace, hfree, rfl⟩
        obtain ⟨there, name, rfl, hparent, hname, hslash⟩ := hplace.locateParent_eq
        rw [hparent]
        dsimp only
        rw [if_neg hname, if_neg hslash]
        split
        · rename_i hdirectory
          exact absurd hdirectory hfree
        · split <;> rfl

/-- A file takes the place that a path names, if what stands there is no directory. -/
theorem replaced_of_rename {old : Path} (hold : Stands store old temp)
    (hfile : store.entry? temp = some (.file bytes)) (h : rename old path store = .ok after) :
    ∃ place, Stands store path place ∧ store.entry? place ≠ some .directory ∧
      after.workingDirectory = store.workingDirectory ∧
      ∀ x, after.entry? x =
        if x = place then some (.file bytes) else if x = temp then none else store.entry? x := by
  obtain ⟨place, hplace, hdirectory, rfl⟩ := (rename_eq_ok_iff hold hfile (by simp)).mp h
  refine ⟨place, hplace, hdirectory, ?_⟩
  split
  · rename_i hsame
    refine ⟨rfl, fun x => ?_⟩
    rw [hsame]
    split <;> simp_all
  · refine ⟨rfl, fun x => ?_⟩
    rw [entry?_put hplace.ne_nil, entry?_remove hold.ne_nil]

/-- A file that is put where no directory stands leaves all directories, and makes none. -/
theorem directory_put_file_iff {x : Location} (hroot : temp ≠ [])
    (hfree : ∀ entry, store.entry? temp = some entry → ∃ bytes, entry = .file bytes) :
    Store.entry? (store.put temp (.file bytes)) x = some .directory ↔
      store.entry? x = some .directory := by
  rw [entry?_put hroot]
  split
  · next hx =>
      constructor
      · simp
      · intro hstore
        obtain ⟨old, hold⟩ := hfree _ (hx ▸ hstore)
        cases hold
  · rfl

/-- A file that is put where no directory and no link stands is in nobody's way. -/
theorem stands_put_file_iff (hroot : temp ≠ [])
    (hfree : ∀ entry, store.entry? temp = some entry → ∃ bytes, entry = .file bytes) :
    Stands (store.put temp (.file bytes)) path location ↔ Stands store path location := by
  have hput : ∀ x, Store.entry? (store.put temp (.file bytes)) x =
      if x = temp then some (.file bytes) else store.entry? x := entry?_put hroot
  constructor
  · intro h
    obtain ⟨_, -, -, hkeep, -⟩ := h.exists_way (.refl _)
    refine hkeep ⟨rfl, fun x hx => ?_, fun x _ target hx => ?_⟩ <;>
    · rw [hput] at hx
      split at hx
      · cases hx
      · exact hx
  · intro h
    obtain ⟨_, -, -, hkeep, -⟩ := h.exists_way (.refl store)
    refine hkeep ⟨rfl, fun x hx => ?_, fun x _ target hx => ?_⟩ <;>
    · rw [hput, if_neg, hx]
      rintro rfl
      obtain ⟨old, hold⟩ := hfree _ hx
      cases hold

/-- Where a file was written: at a place that is no directory, by way of a temporary one that was
free or held a file. -/
structure Replaced (store : Store) (path : Path) (bytes : ByteArray) (place temp : Location)
    (after : Store) : Prop where
  stands : Stands store path place
  notDirectory : store.entry? place ≠ some .directory
  standsTemporary : Stands store (temporary path) temp
  free : ∀ entry, store.entry? temp = some entry → ∃ bytes, entry = .file bytes
  workingDirectory : after.workingDirectory = store.workingDirectory
  entry : ∀ x, after.entry? x =
    if x = place then some (.file bytes) else if x = temp then none else store.entry? x

theorem Replaced.directory (h : Replaced store path bytes place temp after) {x : Location}
    (hx : store.entry? x = some .directory) : after.entry? x = some .directory := by
  have hplace : x ≠ place := by
    rintro rfl
    exact h.notDirectory hx
  have htemp : x ≠ temp := by
    rintro rfl
    obtain ⟨old, hfile⟩ := h.free _ hx
    cases hfile
  rw [h.entry, if_neg hplace, if_neg htemp, hx]

theorem Replaced.grown (h : Replaced store path bytes place temp after)
    (hgrown : Grown origin store) (hlink : ∀ target, origin.entry? temp ≠ some (.link target)) :
    Grown origin after where
  workingDirectory := h.workingDirectory.trans hgrown.workingDirectory
  directory x hx := h.directory (hgrown.directory x hx)
  link x target hx := by
    rw [h.entry] at hx
    split at hx
    · cases hx
    · split at hx
      · cases hx
      · exact hgrown.link x target hx
  replaced x target hx := by
    rw [h.entry]
    split
    · exact .inr ⟨bytes, rfl⟩
    · split
      · rename_i htemp
        exact absurd (htemp ▸ hx) (hlink target)
      · exact hgrown.replaced x target hx

theorem replaced_of_replaceFile
    (hlink : ∀ temp, Stands store (temporary path) temp →
      ∀ target, store.entry? temp ≠ some (.link target))
    (h : replaceFile path bytes store = .ok () after) :
    ∃ place temp, Replaced store path bytes place temp after := by
  obtain ⟨_, middle, hwrite, hrename⟩ := Task.bind_eq_ok_iff.mp h
  obtain ⟨temp, htemp, hfree, rfl⟩ :=
    (writeFile_eq_ok_iff hlink).mp (Task.ofStep_eq_ok_iff.mp hwrite)
  have hput : ∀ x, Store.entry? (store.put temp (.file bytes)) x =
      if x = temp then some (.file bytes) else store.entry? x := entry?_put htemp.ne_nil
  have hstands : ∀ {path location},
      Stands (store.put temp (.file bytes)) path location ↔ Stands store path location :=
    stands_put_file_iff htemp.ne_nil hfree
  obtain ⟨place, hplace, hdirectory, hworking, hentry⟩ :=
    replaced_of_rename (hstands.mpr htemp) (by rw [hput, if_pos rfl])
      (Task.ofStep_eq_ok_iff.mp hrename)
  have hnot : store.entry? place ≠ some .directory :=
    fun hdir => hdirectory ((directory_put_file_iff htemp.ne_nil hfree).mpr hdir)
  refine ⟨place, temp, hstands.mp hplace, hnot, htemp, hfree, hworking, fun x => ?_⟩
  rw [hentry, hput]
  split
  · rfl
  · split <;> rfl

end FlexFold.Store
