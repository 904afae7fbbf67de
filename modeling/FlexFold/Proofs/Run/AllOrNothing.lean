import FlexFold.Proofs.Run.Destinations
import FlexFold.Proofs.Selection.Selected

/-!
All or nothing. A dry run leaves the store as it is and reports what the run would have reported.
A run that meets a defect before it writes, be it in the last of many files or in the system that
starts no workers, fails with the store as it was; and these defects are all that can keep a run
from writing. Where several files fail, any of them may be the one that is named.
-/

namespace FlexFold

open Attempt

/-- A manifest as it would have been written at another time. -/
def Manifest.timed (clock : Clock) (manifest : Manifest) : Manifest :=
  { manifest with
    metadata := { manifest.metadata with generatedAt := clock.now }
    statistics := manifest.statistics.map fun statistics =>
      { statistics with processingTime := some clock.elapsed } }

/-- A report as it would have been made at another time. -/
def Report.timed (clock : Clock) (report : Report) : Report :=
  { report with manifest := report.manifest.timed clock }

/-- Two systems that may differ in their clocks, and in which failure they keep of several. -/
structure Host.Alike (host host' : Host) : Prop where
  refusals : host.refusals = host'.refusals
  workers : host.noWorkers? = host'.noWorkers?

namespace Run

variable {host host' : Host} {request : Request} {store : Store} {report : Report}

/-! ### Times -/

theorem foldl_addFile_timed (clock : Clock) (files : List RewrittenFile) (manifest : Manifest) :
    files.foldl (fun manifest file => manifest.addFile file.source.text file.stats)
        (manifest.timed clock) =
      (files.foldl (fun manifest file => manifest.addFile file.source.text file.stats)
        manifest).timed clock := by
  induction files generalizing manifest with
  | nil => rfl
  | cons file files ih => exact ih (manifest.addFile file.source.text file.stats)

theorem manifestOf_timed (clock clock' : Clock) (files : List RewrittenFile) :
    (manifestOf clock files).timed clock' = manifestOf clock' files := by
  have hnew : Manifest.new clock'.now = (Manifest.new clock.now).timed clock' := rfl
  unfold manifestOf
  rw [hnew, foldl_addFile_timed]
  rfl

/-! ### The system -/

theorem startWorkers_congr (h : host.Alike host') (jobs : Option Nat) :
    startWorkers host jobs = startWorkers host' jobs := by
  rw [startWorkers, startWorkers, h.workers]

/-- The time has a part in nothing but the times of the manifest. -/
theorem prepare_timed (h : host.Alike host') (hkept : host.kept = host'.kept) :
    prepare host request store =
      (prepare host' request store).map (Report.timed host.toClock) := by
  unfold prepare
  rw [h.refusals, startWorkers_congr h, hkept]
  cases plan request store host'.refusals with
  | error failure => rfl
  | ok plan =>
      cases startWorkers host' request.jobs with
      | error fault => rfl
      | ok _ =>
          simp only [bind, Except.bind, mapError_ok]
          cases together host'.kept (plan.results request store host'.refusals) with
          | error failure => rfl
          | ok files => simp [Except.map, Plan.report, Report.timed, manifestOf_timed]

theorem prepare_dryRun (host : Host) (request : Request) (store : Store) (dryRun : Bool) :
    prepare host { request with dryRun } store = prepare host request store := rfl

/-! ### Files that fail -/

/-- Why a file cannot be rewritten, and the failure that it makes. A file whose bytes are no text
is one that cannot be read. -/
inductive FileFault (store : Store) (refusals : Refusals) (source : Path) : Failure → Prop where
  | unreadable {fault : StoreFault} (h : store.readAllowed refusals source = .error fault) :
      FileFault store refusals source (.store fault)
  | badTree {text : String} {error : Json.Error}
      (read : store.readAllowed refusals source = .ok text)
      (h : Markup.Node.parse text = .error error) :
      FileFault store refusals source (.badTree ⟨source.text, error⟩)

theorem rewriteFile_eq_error_iff {refusals : Refusals} {layout : Json.Layout}
    {source destination : Path} {failure : Failure} :
    rewriteFile store refusals layout source destination = .error failure ↔
      FileFault store refusals source failure := by
  unfold rewriteFile
  cases hread : store.readAllowed refusals source with
  | error fault =>
      constructor
      · rintro ⟨⟩
        exact .unreadable hread
      · rintro (h | ⟨read, -⟩)
        · rw [Except.error.inj (hread.symm.trans h)]
        · simp [hread] at read
  | ok text =>
      cases hnode : Markup.Node.parse text with
      | error error =>
          have herror : Source.rewrite layout { name := source.text, text } =
              .error ⟨source.text, error⟩ := by
            simp [Source.rewrite, Source.tree, hnode]
          simp only [herror]
          constructor
          · rintro ⟨⟩
            exact .badTree hread hnode
          · rintro (h | ⟨read, h⟩)
            · simp [hread] at h
            · obtain rfl := Except.ok.inj (hread.symm.trans read)
              rw [Except.error.inj (hnode.symm.trans h)]
      | ok node =>
          have hdone : Source.rewrite layout { name := source.text, text } =
              .ok ⟨node.rewrite.1.print layout, node.rewrite.2⟩ := by
            simp [Source.rewrite, Source.tree, hnode]
          simp only [hdone, reduceCtorEq, false_iff]
          rintro (h | ⟨read, h⟩)
          · simp [hread] at h
          · obtain rfl := Except.ok.inj (hread.symm.trans read)
            simp [hnode] at h

/-- A run comes to its files, and one of them makes a failure. -/
def FailsAtFile (request : Request) (store : Store) (refusals : Refusals) (failure : Failure) :
    Prop :=
  ∃ plan, Run.plan request store refusals = .ok plan ∧
    ∃ file ∈ plan.selected, FileFault store refusals file.path failure

/-- The failures of the jobs of a plan are those of its files. -/
theorem mem_results_iff {refusals : Refusals} {plan : Plan} {failure : Failure}
    (hplan : Run.plan request store refusals = .ok plan) :
    .error failure ∈ plan.results request store refusals ↔
      ∃ file ∈ plan.selected, FileFault store refusals file.path failure := by
  obtain ⟨-, -, -, -, htargets⟩ := plan_eq_ok_iff.mp hplan
  have hsources : plan.jobs.map Prod.fst = plan.selected.map Selected.path :=
    List.map_fst_zip (Nat.le_of_eq (length_destinations htargets).symm)
  simp only [Plan.results, List.mem_map, rewriteFile_eq_error_iff]
  constructor
  · rintro ⟨job, hjob, hfault⟩
    have hmem : job.1 ∈ plan.selected.map Selected.path :=
      hsources ▸ List.mem_map_of_mem hjob
    obtain ⟨file, hfile, hpath⟩ := List.mem_map.mp hmem
    exact ⟨file, hfile, hpath ▸ hfault⟩
  · rintro ⟨file, hfile, hfault⟩
    have hmem : file.path ∈ plan.jobs.map Prod.fst :=
      hsources ▸ List.mem_map_of_mem hfile
    obtain ⟨job, hjob, hpath⟩ := List.mem_map.mp hmem
    exact ⟨job, hjob, hpath ▸ hfault⟩

/-- Two outcomes that are the same but for which of the failing files they name. -/
def Agree (request : Request) (store : Store) (refusals : Refusals)
    (a b : Except Failure Report) : Prop :=
  a = b ∨ ∃ failure failure', a = .error failure ∧ b = .error failure' ∧
    FailsAtFile request store refusals failure ∧ FailsAtFile request store refusals failure'

theorem Agree.map {refusals : Refusals} {a b : Except Failure Report}
    (h : Agree request store refusals a b) (f : Report → Report) :
    Agree request store refusals (a.map f) (b.map f) := by
  rcases h with rfl | ⟨failure, failure', rfl, rfl, hfails⟩
  · exact .inl rfl
  · exact .inr ⟨failure, failure', rfl, rfl, hfails⟩

theorem prepare_keeping (host : Host) (kept : List Failure → Nat) :
    Agree request store host.refusals (prepare { host with kept } request store)
      (prepare host request store) := by
  cases hplan : Run.plan request store host.refusals with
  | error failure =>
      left
      rw [prepare, prepare, hplan]
      rfl
  | ok plan =>
      cases hstarted : startWorkers host request.jobs with
      | error fault =>
          left
          have hsame : startWorkers { host with kept } request.jobs = .error fault := hstarted
          rw [prepare, prepare, hplan, hstarted, hsame]
          rfl
      | ok _ =>
          have hkeeping : prepare { host with kept } request store =
              (together kept (plan.results request store host.refusals)).map
                (plan.report host.toClock) := prepare_of_plan hplan hstarted
          have hfails {failure : Failure}
              (h : .error failure ∈ plan.results request store host.refusals) :
              FailsAtFile request store host.refusals failure :=
            ⟨plan, hplan, (mem_results_iff hplan).mp h⟩
          rw [hkeeping, prepare_of_plan hplan hstarted]
          rcases together_eq_or kept host.kept (plan.results request store host.refusals) with
            hsame | ⟨failure, failure', hfailure, hfailure', hmem, hmem'⟩
          · left
            rw [hsame]
          · right
            rw [hfailure, hfailure']
            exact ⟨failure, failure', rfl, rfl, hfails hmem, hfails hmem'⟩

/-- What a run prepares depends on the time in nothing but the times of its manifest, and on the
choice of a failure in nothing but which of the failing files is named. -/
theorem prepare_agrees (h : host.Alike host') :
    Agree request store host.refusals (prepare host request store)
      ((prepare host' request store).map (Report.timed host.toClock)) := by
  have hsame : host.Alike { host' with kept := host.kept } := ⟨h.refusals, h.workers⟩
  rw [prepare_timed hsame rfl, h.refusals]
  exact (prepare_keeping host' host.kept).map _

/-! ### Defects -/

/-- What keeps a run from writing. -/
inductive Defect (host : Host) (request : Request) (store : Store) : Prop where
  | request {fault : RequestFault} (h : request.check = .error fault)
  | settings {fault : Settings.LoadFault}
      (h : Run.settings store request host.refusals = .error fault)
  | exclusion {settings : Settings} {text : String} {fault : Glob.PatternFault}
      (loaded : Run.settings store request host.refusals = .ok settings)
      (mem : text ∈ settings.exclude) (h : Glob.Pattern.parse text = .error fault)
  | pattern {settings : Settings} {text : String} {fault : Glob.PatternFault}
      (loaded : Run.settings store request host.refusals = .ok settings)
      (mem : text ∈ settings.content) (h : Glob.parse text = .error fault)
  | search {settings : Settings} {text : String} {glob : Glob} {e : GlobError}
      (loaded : Run.settings store request host.refusals = .ok settings)
      (mem : text ∈ settings.content) (parsed : Glob.parse text = .ok glob)
      (h : .error e ∈ glob.paths store host.refusals)
  | nothingFound {settings : Settings}
      (loaded : Run.settings store request host.refusals = .ok settings)
      (h : Selection.files store settings host.refusals = .ok [])
  | noFileName {settings : Settings} {selected : List Selected} {directory : Path}
      {file : Selected} (loaded : Run.settings store request host.refusals = .ok settings)
      (found : Selection.files store settings host.refusals = .ok selected)
      (outDir : request.outDir = some directory) (mem : file ∈ selected)
      (h : file.path.fileName? = none)
  /-- Two files, of which one was selected before the other, go to the same path. -/
  | collision {settings : Settings} {selected : List Selected} {directory : Path}
      {first second : Selected} {name name' : String}
      (loaded : Run.settings store request host.refusals = .ok settings)
      (found : Selection.files store settings host.refusals = .ok selected)
      (outDir : request.outDir = some directory) (mem : [first, second].Sublist selected)
      (firstName : first.path.fileName? = some name)
      (secondName : second.path.fileName? = some name')
      (h : (directory.join name').same (directory.join name))
  | workers {reason : String} (h : host.noWorkers? request.jobs = some reason)
  | badFile {settings : Settings} {selected : List Selected} {file : Selected}
      {failure : Failure} (loaded : Run.settings store request host.refusals = .ok settings)
      (found : Selection.files store settings host.refusals = .ok selected)
      (mem : file ∈ selected) (h : FileFault store host.refusals file.path failure)

theorem Prepared.not_fileFault {settings : Settings} {selected : List Selected}
    {targets : List Path} (h : Prepared host request store report settings selected targets)
    {file : Selected} (hfile : file ∈ selected) {failure : Failure} :
    ¬ FileFault store host.refusals file.path failure := by
  intro hfault
  have hmem : file.path ∈ report.files.map RewrittenFile.source :=
    h.sources ▸ List.mem_map_of_mem hfile
  obtain ⟨done, hdone, hpath⟩ := List.mem_map.mp hmem
  obtain ⟨destination, hrewrite⟩ := h.exists_rewriteFile hdone
  rw [hpath, rewriteFile_eq_error_iff.mpr hfault] at hrewrite
  cases hrewrite

theorem Prepared.not_defect {settings : Settings} {selected : List Selected}
    {targets : List Path} (h : Prepared host request store report settings selected targets) :
    ¬ Defect host request store := by
  -- A defect speaks of the settings and the selection that the run itself has come to.
  have hsettings : ∀ {other}, Run.settings store request host.refusals = .ok other →
      settings = other :=
    fun loaded => Except.ok.inj (h.loaded.symm.trans loaded)
  have hselected : ∀ {other}, Selection.files store settings host.refusals = .ok other →
      selected = other :=
    fun found => Except.ok.inj (h.found.symm.trans found)
  have hsearchable := Selection.files_succeeds_iff.mp ⟨selected, h.found⟩
  have hplanned := destinations_succeeds_iff.mp ⟨targets, h.planned⟩
  intro hdefect
  cases hdefect with
  | request h' => simp [h.check] at h'
  | settings h' => simp [h.loaded] at h'
  | exclusion loaded mem h' =>
      obtain rfl := hsettings loaded
      obtain ⟨p, hp⟩ := hsearchable.1 _ mem
      simp [hp] at h'
  | pattern loaded mem h' =>
      obtain rfl := hsettings loaded
      obtain ⟨glob, hglob, -⟩ := hsearchable.2 _ mem
      simp [hglob] at h'
  | search loaded mem parsed h' =>
      obtain rfl := hsettings loaded
      obtain ⟨glob, hglob, hfound⟩ := hsearchable.2 _ mem
      obtain rfl := Except.ok.inj (hglob.symm.trans parsed)
      exact hfound _ h'
  | nothingFound loaded h' =>
      obtain rfl := hsettings loaded
      have hnonempty := h.nonempty
      simp [hselected h'] at hnonempty
  | noFileName loaded found outDir mem h' =>
      obtain rfl := hsettings loaded
      obtain rfl := hselected found
      obtain ⟨name, hname⟩ := (hplanned _ outDir).1 _ (List.mem_map_of_mem mem)
      simp [hname] at h'
  | collision loaded found outDir mem firstName secondName h' =>
      obtain rfl := hsettings loaded
      obtain rfl := hselected found
      have happart := List.pairwise_iff_forall_sublist.mp
        (List.pairwise_map.mp (hplanned _ outDir).2) mem
      simp [happart _ _ firstName secondName] at h'
  | workers h' =>
      have hstarted := h.started
      simp [startWorkers, h'] at hstarted
  | badFile loaded found mem h' =>
      obtain rfl := hsettings loaded
      obtain rfl := hselected found
      exact h.not_fileFault mem h'

section

variable {settings : Settings} {selected : List Selected}

theorem exists_selected_of_not_defect (h : ¬ Defect host request store)
    (hloaded : Run.settings store request host.refusals = .ok settings) :
    ∃ selected, Selection.files store settings host.refusals = .ok selected := by
  refine Selection.files_succeeds_iff.mpr ⟨fun text hmem => ?_, fun text hmem => ?_⟩
  · cases hp : Glob.Pattern.parse text with
    | error fault => exact absurd (.exclusion hloaded hmem hp) h
    | ok p => exact ⟨p, rfl⟩
  · cases hglob : Glob.parse text with
    | error fault => exact absurd (.pattern hloaded hmem hglob) h
    | ok glob => exact ⟨glob, hglob, fun e he => h (.search hloaded hmem hglob he)⟩

theorem exists_targets_of_not_defect (h : ¬ Defect host request store)
    (hloaded : Run.settings store request host.refusals = .ok settings)
    (hfound : Selection.files store settings host.refusals = .ok selected) :
    ∃ targets, destinations request (selected.map Selected.path) = .ok targets := by
  refine destinations_succeeds_iff.mpr fun directory hdirectory => ⟨?_, ?_⟩
  · intro source hsource
    obtain ⟨file, hfile, rfl⟩ := List.mem_map.mp hsource
    cases hname : file.path.fileName? with
    | none => exact absurd (.noFileName hloaded hfound hdirectory hfile hname) h
    | some name => exact ⟨name, rfl⟩
  · rw [List.pairwise_map, List.pairwise_iff_forall_sublist]
    intro first second hmem name name' hname hname'
    rw [← Bool.not_eq_true]
    exact fun hsame => h (.collision hloaded hfound hdirectory hmem hname hname' hsame)

end

theorem exists_plan_of_not_defect (h : ¬ Defect host request store) :
    ∃ plan, Run.plan request store host.refusals = .ok plan := by
  cases hcheck : request.check with
  | error fault => exact absurd (.request hcheck) h
  | ok =>
      cases hloaded : Run.settings store request host.refusals with
      | error fault => exact absurd (.settings hloaded) h
      | ok settings =>
          obtain ⟨selected, hfound⟩ := exists_selected_of_not_defect h hloaded
          have hnonempty : selected.isEmpty = false := by
            cases selected with
            | nil => exact absurd (.nothingFound hloaded hfound) h
            | cons file selected => rfl
          obtain ⟨targets, hplanned⟩ := exists_targets_of_not_defect h hloaded hfound
          exact ⟨⟨settings, selected, targets⟩,
            plan_eq_ok_iff.mpr ⟨hcheck, hloaded, hfound, hnonempty, hplanned⟩⟩

/-- A run that has no defect comes to the point where it writes. -/
theorem exists_report_of_not_defect (h : ¬ Defect host request store) :
    ∃ report, prepare host request store = .ok report := by
  obtain ⟨plan, hplan⟩ := exists_plan_of_not_defect h
  obtain ⟨-, hloaded, hfound, -, -⟩ := plan_eq_ok_iff.mp hplan
  have hstarted : startWorkers host request.jobs = .ok () := by
    cases hworkers : host.noWorkers? request.jobs with
    | none => simp [startWorkers, hworkers]
    | some reason => exact absurd (.workers hworkers) h
  rw [prepare_of_plan hplan hstarted, map_succeeds_iff]
  cases htogether : together host.kept (plan.results request store host.refusals) with
  | ok files => exact ⟨files, rfl⟩
  | error failure =>
      obtain ⟨file, hfile, hfault⟩ :=
        (mem_results_iff hplan).mp (mem_of_together_eq_error htogether)
      exact absurd (.badFile hloaded hfound hfile hfault) h

theorem prepare_fails_iff :
    (∃ failure, prepare host request store = .error failure) ↔ Defect host request store := by
  cases hprepare : prepare host request store with
  | error failure =>
      refine ⟨fun _ => ?_, fun _ => ⟨failure, rfl⟩⟩
      refine Classical.byContradiction fun hdefect => ?_
      obtain ⟨report, hreport⟩ := exists_report_of_not_defect hdefect
      simp [hprepare] at hreport
  | ok report =>
      obtain ⟨settings, selected, targets, h⟩ := prepared_of_prepare hprepare
      simp [h.not_defect]

/-! ### Runs -/

/-- The store that a run leaves behind. -/
def storeAfter : EStateM.Result Failure Store Report → Store
  | .ok _ store | .error _ store => store

/-- What a run says it has done. -/
def outcome : EStateM.Result Failure Store Report → Except Failure Report
  | .ok report _ => .ok report
  | .error failure _ => .error failure

/-- A run that comes to the point where it writes and fails there. -/
def FailsWriting (host : Host) (request : Request) (store : Store) : Prop :=
  ∃ report failure after, prepare host request store = .ok report ∧
    write request report store = .error failure after

theorem run_of_prepare_error {failure : Failure}
    (h : prepare host request store = .error failure) :
    run host request store = .error failure store := by
  rw [run, h]

theorem run_dry (host : Host) (request : Request) (store : Store) :
    storeAfter (run host { request with dryRun := true } store) = store ∧
      outcome (run host { request with dryRun := true } store) =
        prepare host request store := by
  rw [run, prepare_dryRun]
  cases prepare host request store <;> exact ⟨rfl, rfl⟩

theorem outcome_run (h : ¬ FailsWriting host request store) :
    outcome (run host { request with dryRun := false } store) =
      prepare host request store := by
  rw [run, prepare_dryRun]
  cases hprepare : prepare host request store with
  | error failure => rfl
  | ok report =>
      dsimp only
      rw [if_neg Bool.false_ne_true]
      have hsame : write { request with dryRun := false } report store =
        write request report store := rfl
      rw [hsame]
      cases hwrite : write request report store with
      | error failure after => exact absurd ⟨report, failure, after, hprepare, hwrite⟩ h
      | ok _ after => rfl

/-- Any failing file may be the one that a run names, be it the last of many. -/
theorem exists_run_eq_error {failure : Failure}
    (h : FailsAtFile request store host.refusals failure)
    (hworkers : host.noWorkers? request.jobs = none) :
    ∃ kept, run { host with kept } request store = .error failure store := by
  obtain ⟨plan, hplan, hfile⟩ := h
  obtain ⟨kept, hkept⟩ := exists_together_eq_error ((mem_results_iff hplan).mpr hfile)
  have hstarted : startWorkers host request.jobs = .ok () := by
    rw [startWorkers, hworkers]
  have hprepare : prepare { host with kept } request store =
      (together kept (plan.results request store host.refusals)).map (plan.report host.toClock) :=
    prepare_of_plan hplan hstarted
  exact ⟨kept, run_of_prepare_error (by rw [hprepare, hkept]; rfl)⟩

/-- A tree, one that is cut off, and bytes that are no text. -/
def spoiled : Store :=
  (((Store.ofWorkingDirectory ["home"]).put ["home", "a.json"] (.file flexTree.toUTF8)).put
    ["home", "b.json"] (.file "[".toUTF8)).put ["home", "c.json"] (.file ⟨#[255]⟩)

/-- A request to write all three trees to a directory that is not there. -/
def allIntoNew : Request :=
  { input := ["a.json", "b.json", "c.json"], outDir := some ⟨"new"⟩ }

/-- A system that is done with the last file first. -/
def backwards : Host := { Host.ofClock epoch with kept := fun failures => failures.length - 1 }

end Run
end FlexFold
