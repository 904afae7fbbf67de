import FlexFold.Proofs.Attempt
import FlexFold.Proofs.Store.Replace

/-!
What is left of a file that could not be written. Nobody clears away after a rename that fails, so
the temporary file stays; where the path can take a file no rename fails, and then a failed write
leaves no trace.
-/

namespace FlexFold.Store

variable {store after : Store} {path old : Path} {location place source : Location}
  {entry : Entry} {bytes : ByteArray} {fault : StoreFault}

/-! ### Steps that fail -/

theorem Task.bind_eq_error_iff {ε α β : Type} {x : Task ε α} {f : α → Task ε β} {e : ε} :
    (x >>= f) store = .error e after ↔
      x store = .error e after ∨
        ∃ a middle, x store = .ok a middle ∧ f a middle = .error e after := by
  change EStateM.bind x f store = _ ↔ _
  unfold EStateM.bind
  cases x store with
  | error e' middle => simp
  | ok a middle => simp only [reduceCtorEq, EStateM.Result.ok.injEq, and_assoc, exists_eq_left',
      exists_and_left, false_or]

theorem Task.ofStep_eq_error_iff {step : Store → Except StoreFault Store} :
    Task.ofStep step store = .error fault after ↔ step store = .error fault ∧ after = store := by
  unfold Task.ofStep
  cases step store with
  | error e => simp [eq_comm]
  | ok changed => simp

/-! ### Opening a file -/

/-- Where a file is opened that is to be written: at a free name or at a file, behind all links. -/
def opened? (store : Store) (path : Path) : Option Location :=
  match store.locate true path with
  | .ok (.free location) => some location
  | .ok (.entry location (.file _)) => some location
  | _ => none

theorem opened?_eq_some_iff :
    store.opened? path = some location ↔
      store.locate true path = .ok (.free location) ∨
        ∃ bytes, store.locate true path = .ok (.entry location (.file bytes)) := by
  unfold opened?
  split <;> simp_all

theorem writeFile_of_opened (h : store.opened? path = some location) (bytes : ByteArray) :
    writeFile path bytes store = .ok (store.put location (.file bytes)) := by
  rw [writeFile]
  rcases opened?_eq_some_iff.mp h with hlocate | ⟨old, hlocate⟩ <;> rw [hlocate]

theorem writeFile_of_not_opened (h : store.opened? path = none) (bytes : ByteArray) :
    ∃ fault, writeFile path bytes store = .error fault := by
  unfold opened? at h
  rw [writeFile]
  split <;> simp_all

/-- A file is opened where nothing stands or a file does, and never at the root. -/
theorem free_of_opened (h : store.opened? path = some location) :
    location ≠ [] ∧ ∀ entry, store.entry? location = some entry → ∃ bytes, entry = .file bytes := by
  rcases opened?_eq_some_iff.mp h with hlocate | ⟨bytes, hlocate⟩
  · obtain ⟨hroot, hnone⟩ := (locate_eq_ok_iff.mp hlocate).2.free_entry
    exact ⟨hroot, by simp [hnone]⟩
  · have hentry := (locate_eq_ok_iff.mp hlocate).2.entry?_eq
    refine ⟨?_, by simp [hentry]⟩
    rintro rfl
    unfold entry? at hentry
    simp at hentry

/-- What bears the name of a file that was opened is that file or a link. -/
theorem stands_of_opened (h : store.opened? path = some location) :
    ∃ place, Stands store path place ∧
      (place = location ∨ ∃ target, store.entry? place = some (.link target)) := by
  have hstands : ∃ place, Stands store path place := by
    rcases opened?_eq_some_iff.mp h with hlocate | ⟨bytes, hlocate⟩ <;>
      exact exists_stands hlocate (by simp)
  obtain ⟨place, hstands⟩ := hstands
  refine ⟨place, hstands, ?_⟩
  by_cases hlink : ∃ target, store.entry? place = some (.link target)
  · exact .inr hlink
  · have hlocate : store.locate true path = _ := hstands.locate (.inr (not_exists.mp hlink))
    rw [spotAt] at hlocate
    rcases opened?_eq_some_iff.mp h with hfree | ⟨bytes, hfile⟩
    · rw [hfree] at hlocate
      cases hentry : store.entry? place <;> simp_all
    · rw [hfile] at hlocate
      cases hentry : store.entry? place <;> simp_all

/-! ### Renaming -/

/-- A path that can take a file: its last name stands in a directory, and no directory bears
it. -/
def TakesFile (store : Store) (path : Path) : Prop :=
  ∃ place, Stands store path place ∧ store.entry? place ≠ some .directory

/-- What can be opened can be renamed to. -/
theorem takesFile_of_opened (h : store.opened? path = some location) :
    store.TakesFile path := by
  obtain ⟨place, hstands, rfl | ⟨target, hlink⟩⟩ := stands_of_opened h
  · refine ⟨place, hstands, fun hdirectory => ?_⟩
    obtain ⟨bytes, hfile⟩ := (free_of_opened h).2 _ hdirectory
    cases hfile
  · exact ⟨place, hstands, by simp [hlink]⟩

theorem not_takesFile_of_directory
    (h : store.locate false path = .ok (.entry location .directory)) :
    ¬ store.TakesFile path := by
  rintro ⟨place, hstands, hfree⟩
  rw [hstands.locate (.inl rfl), spotAt] at h
  cases hentry : store.entry? place with
  | none => simp [hentry] at h
  | some entry =>
      simp only [hentry, Except.ok.injEq, Spot.entry.injEq] at h
      exact hfree (hentry.trans (congrArg some h.2))

/-- What is no directory can be renamed to every path that can take a file, and to no other
one. -/
theorem rename_succeeds_iff (hold : Stands store old source)
    (hentry : store.entry? source = some entry) (hnot : entry ≠ .directory) (path : Path) :
    (∃ after, rename old path store = .ok after) ↔ store.TakesFile path := by
  simp only [rename_eq_ok_iff hold hentry hnot, TakesFile]
  constructor
  · rintro ⟨after, place, hplace, hfree, -⟩
    exact ⟨place, hplace, hfree⟩
  · rintro ⟨place, hplace, hfree⟩
    exact ⟨_, place, hplace, hfree, rfl⟩

theorem takesFile_put_iff (hroot : location ≠ [])
    (hfree : ∀ entry, store.entry? location = some entry → ∃ bytes, entry = .file bytes) :
    (store.put location (.file bytes)).TakesFile path ↔ store.TakesFile path := by
  simp only [TakesFile, stands_put_file_iff hroot hfree, ne_eq,
    directory_put_file_iff hroot hfree]

/-! ### Failed writes -/

/-- A file that was opened under its temporary name is written if and only if its path can take
it. -/
theorem replaceFile_succeeds_iff (h : store.opened? (temporary path) = some location) :
    (∃ after, replaceFile path bytes store = .ok () after) ↔ store.TakesFile path := by
  obtain ⟨hroot, hfree⟩ := free_of_opened h
  obtain ⟨temp, htemp, hbears⟩ := stands_of_opened h
  have hentry : ∃ entry, Store.entry? (store.put location (.file bytes)) temp = some entry ∧
      entry ≠ .directory := by
    rw [entry?_put hroot]
    split
    · exact ⟨_, rfl, by simp⟩
    · next hother =>
        obtain ⟨target, hlink⟩ := hbears.resolve_left hother
        exact ⟨_, hlink, by simp⟩
  obtain ⟨entry, hentry, hnot⟩ := hentry
  have hrename := rename_succeeds_iff
    ((stands_put_file_iff hroot hfree).mpr htemp) hentry hnot path
  rw [takesFile_put_iff hroot hfree] at hrename
  rw [← hrename]
  have hwrite : Task.ofStep (writeFile (temporary path) bytes) store =
      .ok () (store.put location (.file bytes)) := by
    rw [Task.ofStep_eq_ok_iff]
    exact writeFile_of_opened h bytes
  constructor
  · rintro ⟨after, hdone⟩
    obtain ⟨_, middle, hmiddle, hdone⟩ := Task.bind_eq_ok_iff.mp hdone
    rw [hwrite] at hmiddle
    cases hmiddle
    exact ⟨after, Task.ofStep_eq_ok_iff.mp hdone⟩
  · rintro ⟨after, hdone⟩
    exact ⟨after, Task.bind_eq_ok_iff.mpr ⟨(), _, hwrite, Task.ofStep_eq_ok_iff.mpr hdone⟩⟩

/-- A write that fails without having opened a file changes nothing, and one that fails later
leaves the temporary file behind. -/
theorem after_of_failed (h : replaceFile path bytes store = .error fault after) :
    (store.opened? (temporary path) = none ∧ after = store) ∨
      ∃ location, store.opened? (temporary path) = some location ∧ ¬ store.TakesFile path ∧
        after = store.put location (.file bytes) := by
  cases hopened : store.opened? (temporary path) with
  | none =>
      left
      obtain ⟨e, hwrite⟩ := writeFile_of_not_opened hopened bytes
      rcases Task.bind_eq_error_iff.mp h with hfailed | ⟨_, middle, hmade, -⟩
      · exact ⟨rfl, (Task.ofStep_eq_error_iff.mp hfailed).2⟩
      · rw [Task.ofStep_eq_ok_iff, hwrite] at hmade
        simp at hmade
  | some location =>
      right
      have hwrite := writeFile_of_opened hopened bytes
      refine ⟨location, rfl, fun htakes => ?_, ?_⟩
      · obtain ⟨done, hdone⟩ := (replaceFile_succeeds_iff hopened).mpr htakes
        rw [h] at hdone
        cases hdone
      · rcases Task.bind_eq_error_iff.mp h with hfailed | ⟨_, middle, hmade, hrename⟩
        · rw [Task.ofStep_eq_error_iff, hwrite] at hfailed
          simp at hfailed
        · rw [Task.ofStep_eq_ok_iff, hwrite] at hmade
          rw [(Task.ofStep_eq_error_iff.mp hrename).2, Except.ok.inj hmade]

/-- A failed write leaves the store as it was if its path can take a file, and in general if and
only if no temporary file was opened, or one that held the very bytes. Otherwise the temporary file
stays, and nothing else has changed. -/
theorem eq_of_failed_iff (h : replaceFile path bytes store = .error fault after) :
    (store.TakesFile path → after = store) ∧
      (after = store ↔ ∀ location, store.opened? (temporary path) = some location →
        store.entry? location = some (.file bytes)) ∧
      ∀ location, store.opened? (temporary path) = some location →
        after = store.put location (.file bytes) := by
  rcases after_of_failed h with ⟨hnone, rfl⟩ | ⟨location, hopened, hnot, rfl⟩
  · simp [hnone]
  · obtain ⟨hroot, -⟩ := free_of_opened hopened
    simp only [hopened, Option.some.injEq, forall_eq']
    refine ⟨fun htakes => absurd htakes hnot, ⟨fun hsame => ?_, put_eq_self hroot⟩, trivial⟩
    rw [← hsame, entry?_put hroot, if_pos rfl]

/-! ### Directories in the way -/

/-- A directory with two others in it: one bears the name of a tree, and one the name of the
temporary file of another tree. -/
def occupied : Store :=
  (((Store.ofWorkingDirectory ["home"]).put ["home", "out"] .directory).put
    ["home", "out", "a.json"] .directory).put ["home", "out", "b.json.tmp"] .directory

theorem eq_of_failed_iff_occupied :
    ∃ fault after, replaceFile ⟨"out/b.json"⟩ "\x7b\x7d".toUTF8 occupied = .error fault after ∧
      occupied.TakesFile ⟨"out/b.json"⟩ ∧ after = occupied := by
  have hopened : occupied.opened? (temporary ⟨"out/b.json"⟩) = none := by decide +kernel
  have hfree : occupied.opened? ⟨"out/b.json"⟩ = some ["home", "out", "b.json"] := by
    decide +kernel
  have htakes : occupied.TakesFile ⟨"out/b.json"⟩ := takesFile_of_opened hfree
  obtain ⟨fault, hwrite⟩ := writeFile_of_not_opened hopened "\x7b\x7d".toUTF8
  have hfailed : replaceFile ⟨"out/b.json"⟩ "\x7b\x7d".toUTF8 occupied = .error fault occupied :=
    Task.bind_eq_error_iff.mpr (.inl (Task.ofStep_eq_error_iff.mpr ⟨hwrite, rfl⟩))
  exact ⟨fault, occupied, hfailed, htakes, (eq_of_failed_iff hfailed).1 htakes⟩

/-- A directory has the place of the tree, so the rename fails, and the temporary file is there
afterwards. -/
theorem not_eq_of_failed :
    ¬ ∀ (store after : Store) (path : Path) (bytes : ByteArray) (fault : StoreFault),
      replaceFile path bytes store = .error fault after → after = store := by
  intro h
  have hopened : occupied.opened? (temporary ⟨"out/a.json"⟩) =
      some ["home", "out", "a.json.tmp"] := by decide +kernel
  have hdirectory : occupied.locate false ⟨"out/a.json"⟩ =
      .ok (.entry ["home", "out", "a.json"] .directory) :=
    Attempt.ok_of_toOption (by decide +kernel)
  have hnot : ¬ occupied.TakesFile ⟨"out/a.json"⟩ := not_takesFile_of_directory hdirectory
  cases hwrite : replaceFile ⟨"out/a.json"⟩ "\x7b\x7d".toUTF8 occupied with
  | ok u after => exact hnot ((replaceFile_succeeds_iff hopened).mp ⟨after, hwrite⟩)
  | error fault after =>
      have hsame := h _ _ _ _ _ hwrite
      rcases after_of_failed hwrite with ⟨hnone, -⟩ | ⟨location, hlocation, -, hafter⟩
      · simp [hopened] at hnone
      · obtain rfl := Option.some.inj (hopened.symm.trans hlocation)
        have hfile : Store.entry? after ["home", "out", "a.json.tmp"] =
            some (.file "\x7b\x7d".toUTF8) := by
          rw [hafter, entry?_put (by simp), if_pos rfl]
        have hnone : Store.entry? occupied ["home", "out", "a.json.tmp"] = none := by
          decide +kernel
        rw [hsame, hnone] at hfile
        cases hfile

end FlexFold.Store
