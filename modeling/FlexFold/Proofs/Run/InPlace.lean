import FlexFold.Proofs.Run.Bystanders
import FlexFold.Proofs.Run.ReadBack
import FlexFold.Proofs.Selection.Links

/-!
Where a run in place writes. A file is read through the links at the end of its path, but it is
written under the path itself: a link there is replaced by a file with the new text, and the file
that it led to is left as it was unless it is selected by a path of its own.
-/

namespace FlexFold.Run

open Store (Stands temporary)

variable {host : Host} {request : Request} {report : Report} {origin store after : Store}
  {written : List (Path × String)} {x : Location} {target : Path}

/-! ### Links that are replaced -/

/-- No link comes into being. -/
theorem Writes.no_link (h : Writes origin store written after)
    (hentry : ∀ target, store.entry? x ≠ some (.link target)) (target : Path) :
    after.entry? x ≠ some (.link target) := by
  induction h with
  | done => exact hentry target
  | @next _ made _ _ _ _ _ place temp hmade _ hreplaced _ _ _ ih =>
      apply ih
      intro target
      rw [hreplaced.entry]
      split
      · simp
      · split
        · simp
        · rcases hmade.entry x with hsame | ⟨-, hdirectory⟩
          · rw [hsame]
            exact hentry target
          · simp [hdirectory]

theorem Writes.link_replaced (h : Writes origin store written after)
    (hx : ∃ output ∈ written, origin.place? output.1 = some x) :
    after.entry? x ≠ some (.link target) := by
  induction h with
  | done => simp at hx
  | @next _ _ _ _ _ _ _ place temp _ _ hreplaced hplace _ hwrites ih =>
      obtain ⟨output, houtput, hplaced⟩ := hx
      rcases List.mem_cons.mp houtput with rfl | houtput
      · obtain rfl := Option.some.inj (hplaced.symm.trans hplace)
        refine hwrites.no_link (fun target => ?_) target
        rw [hreplaced.entry, if_pos rfl]
        simp
      · exact ih ⟨output, houtput, hplaced⟩

/-- A link is the same as before if and only if no output goes where it stands. -/
theorem Writes.link_kept_iff (h : Writes store store written after)
    (hunlinked : ∀ output ∈ written, store.bearsLink (temporary output.1) = false)
    (hlink : store.entry? x = some (.link target)) :
    after.entry? x = some (.link target) ↔
      ∀ output ∈ written, store.place? output.1 ≠ some x := by
  constructor
  · intro hkept output houtput hplace
    exact h.link_replaced ⟨output, houtput, hplace⟩ hkept
  · intro hplaces
    exact h.entry_of_untouched (untouched_of_link hunlinked hplaces hlink) hlink

/-! ### Files that are written -/

/-- What becomes of a file that is written in place. Its path ends at `place`, and before the run
it led to `location`, which is somewhere else only if there is a link at `place`. -/
structure Rewrites (store after : Store) (request : Request) (report : Report)
    (file : RewrittenFile) (place location : Location) (bytes : ByteArray) : Prop where
  stood : store.place? file.source = some place
  led : store.find? true file.source = some (location, .file bytes)
  /-- The path now leads to the new text, and through no link at its end. -/
  leads : after.find? true file.source = some (place, .file file.content.toUTF8)
  unlinked : store.isLink file.source = false → location = place
  /-- What the path led to has the new text if a file that is written stands there. -/
  denoted : (∃ other ∈ pendingFiles request report, store.place? other.source = some location) →
    after.entry? location = some (.file file.content.toUTF8)
  /-- What the path led to is as before if neither an output nor a temporary file goes there. -/
  left : Untouched store (outputs request report) location →
    after.entry? location = some (.file bytes)

section

variable {settings : Settings} {selected : List Selected} {targets : List Path}
  {file : RewrittenFile}

theorem Writes.locate_of_pending (hwrites : Writes store store (outputs request report) after)
    (h : Prepared host request store report settings selected targets)
    (hapart : Apart store request report) (hplace : request.inPlace = true)
    (hfile : file ∈ pendingFiles request report) :
    ∃ place, store.place? file.source = some place ∧
      after.locate true file.source = .ok (.entry place (.file file.content.toUTF8)) := by
  have hlocate := hwrites.locate_of_mem hapart.unlinked (h.avoids_self hapart) (h.spares hapart)
    (mem_outputs_iff.mpr (.inl ⟨file, hfile, rfl⟩))
  rwa [h.destination_eq hplace (mem_of_mem_pendingFiles hfile)] at hlocate

theorem Writes.rewrites (hwrites : Writes store store (outputs request report) after)
    (h : Prepared host request store report settings selected targets)
    (hapart : Apart store request report) (hplace : request.inPlace = true)
    (hfile : file ∈ pendingFiles request report) :
    ∃ place location bytes, Rewrites store after request report file place location bytes := by
  have hreported := mem_of_mem_pendingFiles hfile
  obtain ⟨place, hplaced, hafter⟩ := hwrites.locate_of_pending h hapart hplace hfile
  obtain ⟨hstands, location, bytes, hbefore⟩ :=
    h.stands hplace hreported (h.destination_eq hplace hreported ▸ hplaced)
  have hentry : store.entry? location = some (.file bytes) :=
    (Store.locate_eq_ok_iff.mp hbefore).2.entry?_eq
  refine ⟨place, location, bytes, hplaced, Store.find?_eq_some_iff.mpr hbefore,
    Store.find?_eq_some_iff.mpr hafter, fun hunlinked => ?_, ?_, fun huntouched => ?_⟩
  · have hnoLink : ∀ target, store.entry? place ≠ some (.link target) := by
      intro target hlink
      exact Bool.false_ne_true (hunlinked.symm.trans (hstands.isLink_iff.mpr ⟨target, hlink⟩))
    rw [hstands.locate (.inr hnoLink), Store.spotAt] at hbefore
    cases hstanding : store.entry? place with
    | none => simp [hstanding] at hbefore
    | some entry =>
        rw [hstanding] at hbefore
        exact (Store.Spot.entry.inj (Except.ok.inj hbefore)).1.symm
  · rintro ⟨other, hother, hotherAt⟩
    have hotherReported := mem_of_mem_pendingFiles hother
    -- The other file is read from the same location, so both become the same.
    obtain ⟨hotherStands, _⟩ :=
      h.stands hplace hotherReported (h.destination_eq hplace hotherReported ▸ hotherAt)
    have hotherBefore : store.locate true other.source = .ok (.entry location (.file bytes)) := by
      rw [hotherStands.locate (.inr (by simp [hentry])), Store.spotAt, hentry]
    have hsame : other.content = file.content := by
      refine (h.eq_of_readText hotherReported hreported ?_).1
      rw [Store.readText_of_locate hotherBefore, Store.readText_of_locate hbefore]
    obtain ⟨there, hthere, hotherAfter⟩ := hwrites.locate_of_pending h hapart hplace hother
    obtain rfl := Option.some.inj (hotherAt.symm.trans hthere)
    rw [← hsame]
    exact (Store.locate_eq_ok_iff.mp hotherAfter).2.entry?_eq
  · exact hwrites.entry_of_untouched huntouched hentry

end

/-! ### Runs -/

/-- After a run in place, a path that was written ends at a file with the new text, where a link
that was there is replaced; what that link led to has the new text only through a path of its own.
All other links are as they were. -/
theorem run_rewrites_inPlace (hrun : run host request store = .ok report after)
    (hwrites : request.dryRun = false) (hplace : request.inPlace = true)
    (hapart : Apart store request report) :
    (∀ file ∈ pendingFiles request report, ∃ place location bytes,
      Rewrites store after request report file place location bytes) ∧
    ∀ x target, store.entry? x = some (.link target) →
      (after.entry? x = some (.link target) ↔
        ∀ output ∈ outputs request report, store.place? output.1 ≠ some x) := by
  obtain ⟨hprepare, hwrites⟩ := writes_of_run hrun hwrites hapart.unlinked
  obtain ⟨settings, selected, targets, h⟩ := prepared_of_prepare hprepare
  exact ⟨fun file hfile => hwrites.rewrites h hapart hplace hfile,
    fun x target hlink => hwrites.link_kept_iff hapart.unlinked hlink⟩

/-! ### A link to a tree -/

/-- A tree, a link to it, and settings that allow links. -/
def linkedTree : Store :=
  (((Store.ofWorkingDirectory ["home"]).put ["home", "real.json"]
    (.file flexTree.toUTF8)).put
    ["home", "link.json"] (.link ⟨"real.json"⟩)).put ["home", "c.json"]
    (.file "\x7b\"security\":\x7b\"allow_symlinks\":true\x7d\x7d".toUTF8)

/-- A request to rewrite the tree in place through the link. -/
def throughLink : Request :=
  { input := ["link.json"], inPlace := true, config := some ⟨"c.json"⟩ }

/-- The link has become a file, and what it led to is as it was. -/
theorem run_rewrites_linkedTree :
    ∃ report after, run epoch throughLink linkedTree = .ok report after ∧
      (pendingFiles throughLink report).map RewrittenFile.source = [⟨"link.json"⟩] ∧
      (∀ file ∈ pendingFiles throughLink report, ∃ place location bytes,
        Rewrites linkedTree after throughLink report file place location bytes) ∧
      ∀ x target, linkedTree.entry? x = some (.link target) →
        (after.entry? x = some (.link target) ↔
          ∀ output ∈ outputs throughLink report, linkedTree.place? output.1 ≠ some x) := by
  have hreport : ((outcome (run epoch throughLink linkedTree)).toOption.map
      fun report => ((pendingFiles throughLink report).map RewrittenFile.source,
        decide (Apart linkedTree throughLink report))) =
      some ([⟨"link.json"⟩], true) := by decide +kernel
  cases hrun : run epoch throughLink linkedTree with
  | error failure after => simp [hrun, outcome, Except.toOption] at hreport
  | ok report after =>
      rw [hrun] at hreport
      simp only [outcome, Except.toOption, Option.map_some, Option.some.injEq, Prod.mk.injEq,
        decide_eq_true_eq] at hreport
      obtain ⟨hpending, hapart⟩ := hreport
      exact ⟨report, after, rfl, hpending, run_rewrites_inPlace hrun rfl rfl hapart⟩

/-- The run succeeds and the file that the link led to, though read, is not written. -/
theorem not_run_rewrites_denoted :
    ¬ ∀ (clock : Clock) (request : Request) (store after : Store) (report : Report),
      run clock request store = .ok report after → request.dryRun = false →
      request.inPlace = true →
      (∀ file ∈ pendingFiles request report, ∀ location,
        store.canonical? file.source = some location →
        after.entry? location = some (.file file.content.toUTF8)) ∧
      ∀ x target, store.entry? x = some (.link target) →
        after.entry? x = some (.link target) := by
  intro h
  have hpending : ((outcome (run epoch throughLink linkedTree)).toOption.map fun report =>
      (pendingFiles throughLink report).map RewrittenFile.source) =
      some [⟨"link.json"⟩] := by decide +kernel
  have hdenoted : linkedTree.canonical? ⟨"link.json"⟩ = some ["home", "real.json"] := by
    decide +kernel
  have hstale : ((outcome (run epoch throughLink linkedTree)).toOption.map fun report =>
      (pendingFiles throughLink report).all fun file =>
        Store.entry? (storeAfter (run epoch throughLink linkedTree))
          ["home", "real.json"] != some (.file file.content.toUTF8)) = some true := by
    decide +kernel
  cases hrun : run epoch throughLink linkedTree with
  | error failure after => simp [hrun, outcome, Except.toOption] at hpending
  | ok report after =>
      rw [hrun] at hpending hstale
      have hmem : (⟨"link.json"⟩ : Path) ∈
          (pendingFiles throughLink report).map RewrittenFile.source := by
        rw [show (pendingFiles throughLink report).map RewrittenFile.source = _ from
          Option.some.inj hpending]
        exact List.mem_cons_self
      obtain ⟨file, hfile, hpath⟩ := List.mem_map.mp hmem
      have hwritten := (h _ _ _ _ _ hrun rfl rfl).1 file hfile _ (hpath ▸ hdenoted)
      have hnot := List.all_eq_true.mp (Option.some.inj hstale) file hfile
      simp [storeAfter, hwritten] at hnot

end FlexFold.Run
