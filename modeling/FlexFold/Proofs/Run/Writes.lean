import FlexFold.Proofs.Store.Replace
import FlexFold.Run

/-!
What a run writes. Its outputs are written one after another; each of them takes the place of its
path and empties the place of its temporary file, and the places are known before the first of
them is written.
-/

namespace FlexFold.Run

open Store (Extends Replaced Grown Keeps Task temporary)

variable {origin store after : Store} {request : Request} {report : Report}
  {written : List (Path × String)} {x : Location} {entry : Entry}

/-! ### Outputs -/

/-- The texts that a run writes, each with its path, in the order in which they are written. -/
def outputs (request : Request) (report : Report) : List (Path × String) :=
  (pendingFiles request report).map (fun file => (file.destination, file.content)) ++
    request.manifest.toList.map fun path => (path, report.manifest.print (manifestLayout request))

theorem mem_outputs_iff {output : Path × String} :
    output ∈ outputs request report ↔
      (∃ file ∈ pendingFiles request report, (file.destination, file.content) = output) ∨
      ∃ path ∈ request.manifest,
        (path, report.manifest.print (manifestLayout request)) = output := by
  simp [outputs]

theorem write_eq (request : Request) (report : Report) :
    write request report =
      forM (outputs request report) fun output => writeText output.1 output.2 := by
  unfold write outputs
  rw [List.forM_append, List.forM_map]
  cases request.manifest with
  | none => rfl
  | some path => simp

theorem extends_of_writeText {path : Path} {text : String}
    (h : writeText path text store = .ok () after) :
    ∃ made, Extends store made ∧ Store.replaceFile path text.toUTF8 made = .ok () after := by
  unfold writeText at h
  dsimp only at h
  split at h
  · cases h
  · rename_i made hparent
    split at h
    · cases h
    · rename_i hreplace
      cases h
      refine ⟨made, ?_, hreplace⟩
      cases hpath : path.parent? with
      | none =>
          rw [hpath] at hparent
          cases hparent
          exact .refl store
      | some parent =>
          rw [hpath] at hparent
          exact Store.extends_of_makeChain hparent

/-- Outputs that are written one after another, where each path names the place that it named in
the beginning. -/
inductive Writes (origin : Store) : Store → List (Path × String) → Store → Prop where
  | done (store : Store) : Writes origin store [] store
  | next {store made next after : Store} {path : Path} {text : String}
      {written : List (Path × String)} {place temp : Location}
      (hmade : Extends store made) (hgrown : Grown origin made)
      (hreplaced : Replaced made path text.toUTF8 place temp next)
      (hplace : origin.place? path = some place)
      (htemp : origin.place? (temporary path) = some temp) :
      Writes origin next written after →
      Writes origin store ((path, text) :: written) after

/-- What was written so far only adds directories and replaces links by files, so every path still
names the place that it named in the beginning. -/
theorem writes_of_forM (hgrown : Grown origin store)
    (hlinks : ∀ output ∈ written, origin.bearsLink (temporary output.1) = false)
    (h : (forM written fun output => writeText output.1 output.2) store = .ok () after) :
    Writes origin store written after := by
  induction written generalizing store with
  | nil =>
      cases h
      exact .done _
  | cons output written ih =>
      obtain ⟨path, text⟩ := output
      rw [List.forM_cons] at h
      obtain ⟨_, next, hhead, hrest⟩ := Task.bind_eq_ok_iff.mp h
      obtain ⟨made, hmade, hreplace⟩ := extends_of_writeText hhead
      have hgrown := hmade.grown hgrown
      obtain ⟨hhead, htail⟩ := List.forall_mem_cons.mp hlinks
      have hlink : ∀ temp, Store.Stands made (temporary path) temp →
          ∀ target, origin.entry? temp ≠ some (.link target) :=
        fun temp htemp target => Store.ne_link_of_bearsLink hhead (htemp.place?_eq hgrown)
      obtain ⟨place, temp, hreplaced⟩ := Store.replaced_of_replaceFile
        (fun temp htemp target hentry =>
          hlink temp htemp target (hgrown.link temp target hentry)) hreplace
      have htemp := hreplaced.standsTemporary
      refine .next hmade hgrown hreplaced (hreplaced.stands.place?_eq hgrown)
        (htemp.place?_eq hgrown) ?_
      exact ih (hreplaced.grown hgrown (hlink temp htemp)) htail hrest

/-! ### What stays -/

/-- A location where no output and no temporary file goes. -/
def Untouched (origin : Store) (written : List (Path × String)) (x : Location) : Prop :=
  ∀ output ∈ written, origin.place? output.1 ≠ some x ∧
    origin.place? (temporary output.1) ≠ some x

theorem Writes.entry_of_untouched (h : Writes origin store written after)
    (hx : Untouched origin written x) (hentry : store.entry? x = some entry) :
    after.entry? x = some entry := by
  induction h with
  | done => exact hentry
  | @next _ _ _ _ path text _ place temp hmade _ hreplaced hplace htemp _ ih =>
      obtain ⟨⟨hpath, htemporary⟩, hrest⟩ := List.forall_mem_cons.mp hx
      have hnotPlace : x ≠ place := fun e => hpath (e ▸ hplace)
      have hnotTemp : x ≠ temp := fun e => htemporary (e ▸ htemp)
      refine ih hrest ?_
      rw [hreplaced.entry, if_neg hnotPlace, if_neg hnotTemp, hmade.entry_of_some hentry]

/-- A file stays if whatever is written in its place is the same. -/
theorem Writes.file_kept (h : Writes origin store written after) {bytes : ByteArray}
    (hentry : store.entry? x = some (.file bytes))
    (htemporary : ∀ output ∈ written, origin.place? (temporary output.1) ≠ some x)
    (hagree : ∀ output ∈ written, origin.place? output.1 = some x → output.2.toUTF8 = bytes) :
    after.entry? x = some (.file bytes) := by
  induction h with
  | done => exact hentry
  | @next _ made next _ path text _ place temp hmade _ hreplaced hplace htemp _ ih =>
      obtain ⟨hhead, htail⟩ := List.forall_mem_cons.mp htemporary
      obtain ⟨hsame, hagree⟩ := List.forall_mem_cons.mp hagree
      have hnotTemp : x ≠ temp := fun e => hhead (e ▸ htemp)
      refine ih ?_ htail hagree
      rw [hreplaced.entry, if_neg hnotTemp, hmade.entry_of_some hentry]
      split
      · rename_i hx
        rw [hsame (hx ▸ hplace)]
      · rfl

theorem Writes.directory (h : Writes origin store written after)
    (hentry : store.entry? x = some .directory) : after.entry? x = some .directory := by
  induction h with
  | done => exact hentry
  | next hmade _ hreplaced _ _ _ ih => exact ih (hreplaced.directory (hmade.entry_of_some hentry))

theorem Writes.workingDirectory (h : Writes origin store written after) :
    after.workingDirectory = store.workingDirectory := by
  induction h with
  | done => rfl
  | next hmade _ hreplaced _ _ _ ih =>
      rw [ih, hreplaced.workingDirectory, hmade.workingDirectory]

/-- Links are safe from temporary files if none of them bears such a name. -/
theorem untouched_of_link (hunlinked : ∀ output ∈ written,
      origin.bearsLink (temporary output.1) = false)
    (hplaces : ∀ output ∈ written, origin.place? output.1 ≠ some x) {target : Path}
    (hlink : origin.entry? x = some (.link target)) : Untouched origin written x := by
  refine fun output houtput => ⟨hplaces output houtput, fun htemp => ?_⟩
  exact Store.ne_link_of_bearsLink (hunlinked output houtput) htemp hlink

theorem Writes.keeps (h : Writes origin store written after) {links : List Location}
    (hlinks : ∀ x ∈ links, ∀ target, store.entry? x = some (.link target) →
      Untouched origin written x) : Keeps store after links where
  workingDirectory := h.workingDirectory
  directory _ hx := h.directory hx
  link x hx target hentry := h.entry_of_untouched (hlinks x hx target hentry) hentry

/-! ### Runs -/

theorem writes_of_run {host : Host} (h : run host request store = .ok report after)
    (hwrites : request.dryRun = false)
    (hlinks : ∀ output ∈ outputs request report, store.bearsLink (temporary output.1) = false) :
    prepare host request store = .ok report ∧
      Writes store store (outputs request report) after := by
  rw [run] at h
  split at h
  · cases h
  · rename_i prepared hprepare
    rw [if_neg (by simp [hwrites])] at h
    split at h
    · cases h
    · rename_i hwrite
      cases h
      rw [write_eq] at hwrite
      exact ⟨hprepare, writes_of_forM (.refl store) hlinks hwrite⟩

end FlexFold.Run
