import FlexFold.Proofs.Attempt
import FlexFold.Proofs.Selection.Selected
import FlexFold.Proofs.Source.FixedPoint
import FlexFold.Run

/-!
What a run has prepared before it writes. Every file that it reports was read from the store, and
the tree in it was rewritten; where the tree goes plays no part in what becomes of it. Nor does the
system: a run that has prepared everything has met no refusal.
-/

namespace FlexFold

open Attempt

/-! ### Steps that meet no refusal -/

theorem Store.readAllowed_eq_ok_iff {store : Store} {refusals : Refusals} {path : Path}
    {text : String} :
    store.readAllowed refusals path = .ok text ↔
      refusals path = none ∧ store.readText path = .ok text := by
  unfold readAllowed
  cases refusals path <;> simp

theorem Settings.load_of_allowed {store : Store} {refusals : Refusals} {path : Path}
    {settings : Settings} (h : load store path refusals = .ok settings) :
    load store path = .ok settings := by
  unfold load at h ⊢
  split at h
  · cases h
  · next format _ =>
      split at h
      · cases h
      · next text hread =>
          have hopen : store.readAllowed (fun _ => none) path = .ok text :=
            (Store.readAllowed_eq_ok_iff.mp hread).2
          rw [hopen]
          exact h

namespace Run

theorem settings_of_allowed {store : Store} {request : Request} {refusals : Refusals}
    {loaded : Settings} (h : settings store request refusals = .ok loaded) :
    settings store request = .ok loaded := by
  unfold settings at h ⊢
  dsimp only at h ⊢
  split at h
  · exact h
  · obtain ⟨read, hread, hmerged⟩ := map_eq_ok_iff.mp h
    exact map_eq_ok_iff.mpr ⟨read, Settings.load_of_allowed hread, hmerged⟩

/-! ### Jobs that are done at the same time -/

section

variable {α : Type} {kept : List Failure → Nat} {results : List (Except Failure α)}
  {values : List α} {failure : Failure}

theorem mem_failures_iff : failure ∈ results.filterMap failure? ↔ .error failure ∈ results := by
  simp only [List.mem_filterMap]
  constructor
  · rintro ⟨result, hresult, hsome⟩
    cases result with
    | error other => exact Option.some.inj hsome ▸ hresult
    | ok value => cases hsome
  · exact fun h => ⟨_, h, rfl⟩

theorem eq_map_ok_of_failures (h : results.filterMap failure? = []) :
    results = (results.filterMap Except.toOption).map .ok := by
  induction results with
  | nil => rfl
  | cons result results ih =>
      cases result with
      | error failure => simp [failure?] at h
      | ok value =>
          rw [List.filterMap_cons] at h
          rw [List.filterMap_cons]
          exact congrArg (Except.ok value :: ·) (ih h)

/-- Jobs succeed together if and only if each of them does. -/
theorem together_eq_ok_iff : together kept results = .ok values ↔ results = values.map .ok := by
  unfold together
  constructor
  · intro h
    split at h
    · next hnone => rw [← Except.ok.inj h, ← eq_map_ok_of_failures hnone]
    · cases h
  · rintro rfl
    have hnone : (values.map (Except.ok : α → Except Failure α)).filterMap failure? = [] := by
      simp [List.filterMap_eq_nil_iff, failure?]
    rw [hnone]
    simp [List.filterMap_map, Function.comp_def, Except.toOption]

/-- The failure that is kept is one of a job. -/
theorem mem_of_together_eq_error (h : together kept results = .error failure) :
    .error failure ∈ results := by
  rw [← mem_failures_iff]
  unfold together at h
  split at h
  · cases h
  · next first others hfailures =>
      obtain rfl := Except.error.inj h
      rw [hfailures]
      rw [List.getD_eq_getElem?_getD]
      cases hkept : (first :: others)[kept (first :: others)]? with
      | none => exact List.mem_cons_self
      | some other => exact List.mem_of_getElem? hkept

/-- Every failure of a job may be the one that is kept. -/
theorem exists_together_eq_error (h : .error failure ∈ results) :
    ∃ kept, together kept results = .error failure := by
  obtain ⟨position, hposition⟩ := List.mem_iff_getElem?.mp (mem_failures_iff.mpr h)
  refine ⟨fun _ => position, ?_⟩
  unfold together
  cases hfailures : results.filterMap failure? with
  | nil => simp [hfailures] at hposition
  | cons first others =>
      rw [hfailures] at hposition
      simp [List.getD, hposition]

/-- Whatever is kept, jobs that succeed have the same results, and of jobs that fail a failure is
kept. -/
theorem together_eq_or (kept kept' : List Failure → Nat) (results : List (Except Failure α)) :
    together kept results = together kept' results ∨
      ∃ failure failure', together kept results = .error failure ∧
        together kept' results = .error failure' ∧
        .error failure ∈ results ∧ .error failure' ∈ results := by
  cases h : together kept results with
  | ok values =>
      left
      rw [together_eq_ok_iff.mpr (together_eq_ok_iff.mp h)]
  | error failure =>
      cases h' : together kept' results with
      | ok values =>
          rw [together_eq_ok_iff.mpr (together_eq_ok_iff.mp h')] at h
          cases h
      | error failure' =>
          right
          exact ⟨failure, failure', rfl, rfl, mem_of_together_eq_error h,
            mem_of_together_eq_error h'⟩

end

/-! ### The steps of a preparation -/

/-- What stands between a request and its report: the settings, the files that were selected and
where their trees go. -/
structure Prepared (host : Host) (request : Request) (store : Store) (report : Report)
    (settings : Settings) (selected : List Selected) (targets : List Path) : Prop where
  check : request.check = .ok ()
  loaded : Run.settings store request host.refusals = .ok settings
  found : Selection.files store settings host.refusals = .ok selected
  nonempty : selected.isEmpty = false
  planned : destinations request (selected.map Selected.path) = .ok targets
  started : startWorkers host request.jobs = .ok ()
  files : Plan.results ⟨settings, selected, targets⟩ request store host.refusals =
    report.files.map .ok
  manifest : report.manifest = manifestOf host.toClock report.files
  bytesProcessed : report.bytesProcessed = selected.foldl (fun n file => n + file.size) 0

theorem plan_eq_ok_iff {request : Request} {store : Store} {refusals : Refusals} {plan : Plan} :
    Run.plan request store refusals = .ok plan ↔
      request.check = .ok () ∧ Run.settings store request refusals = .ok plan.settings ∧
        Selection.files store plan.settings refusals = .ok plan.selected ∧
        plan.selected.isEmpty = false ∧
        destinations request (plan.selected.map Selected.path) = .ok plan.destinations := by
  unfold Run.plan
  simp only [bind_eq_ok_iff, mapError_eq_ok_iff]
  constructor
  · rintro ⟨_, hcheck, settings, hsettings, selected, hselected, h⟩
    cases hempty : selected.isEmpty with
    | true => simp [hempty, bind, Except.bind] at h
    | false =>
        simp only [hempty, Bool.false_eq_true, if_false] at h
        obtain ⟨targets, htargets, h⟩ := bind_eq_ok_iff.mp h
        obtain rfl := Except.ok.inj h
        exact ⟨hcheck, hsettings, hselected, hempty, mapError_eq_ok_iff.mp htargets⟩
  · rintro ⟨hcheck, hsettings, hselected, hempty, htargets⟩
    refine ⟨(), hcheck, _, hsettings, _, hselected, ?_⟩
    simp only [hempty, Bool.false_eq_true, if_false]
    exact bind_eq_ok_iff.mpr ⟨_, mapError_eq_ok_iff.mpr htargets, rfl⟩

theorem prepared_of_prepare {host : Host} {request : Request} {store : Store}
    {report : Report} (h : prepare host request store = .ok report) :
    ∃ settings selected targets,
      Prepared host request store report settings selected targets := by
  unfold prepare at h
  obtain ⟨plan, hplan, h⟩ := bind_eq_ok_iff.mp h
  obtain ⟨_, hstarted, h⟩ := bind_eq_ok_iff.mp h
  obtain ⟨files, hfiles, h⟩ := bind_eq_ok_iff.mp h
  obtain rfl := Except.ok.inj h
  obtain ⟨hcheck, hsettings, hselected, hempty, htargets⟩ := plan_eq_ok_iff.mp hplan
  exact ⟨_, _, _, hcheck, hsettings, hselected, hempty, htargets,
    mapError_eq_ok_iff.mp hstarted, together_eq_ok_iff.mp hfiles, rfl, rfl⟩

/-- A run that has a plan and workers rewrites its files. -/
theorem prepare_of_plan {host : Host} {request : Request} {store : Store} {plan : Plan}
    (hplan : Run.plan request store host.refusals = .ok plan)
    (hstarted : startWorkers host request.jobs = .ok ()) :
    prepare host request store =
      (together host.kept (plan.results request store host.refusals)).map
        (plan.report host.toClock) := by
  rw [prepare, hplan, hstarted]
  rfl

/-- The settings are those of a system that refuses nothing. -/
theorem Prepared.settings_eq {host : Host} {request : Request} {store : Store} {report : Report}
    {settings : Settings} {selected : List Selected} {targets : List Path}
    (h : Prepared host request store report settings selected targets) :
    Run.settings store request = .ok settings :=
  settings_of_allowed h.loaded

/-! ### The files of a report -/

theorem length_destinationsIn {directory : Path} {taken sources targets : List Path}
    (h : destinationsIn directory taken sources = .ok targets) :
    targets.length = sources.length := by
  induction sources generalizing taken targets with
  | nil =>
      obtain rfl := Except.ok.inj h
      rfl
  | cons source sources ih =>
      rw [destinationsIn] at h
      split at h
      · simp at h
      · dsimp only at h
        split at h
        · simp at h
        · obtain ⟨rest, hrest, rfl⟩ := map_eq_ok_iff.mp h
          rw [List.length_cons, List.length_cons, ih hrest]

theorem length_destinations {request : Request} {sources targets : List Path}
    (h : destinations request sources = .ok targets) : targets.length = sources.length := by
  unfold destinations at h
  split at h
  · rw [Except.ok.inj h]
  · exact length_destinationsIn h

/-- What becomes of the tree in a file, wherever it goes. -/
def rewriteAt (store : Store) (layout : Json.Layout) (source : Path) :
    Except Failure Rewritten :=
  match store.readText source with
  | .error fault => .error (.store fault)
  | .ok text =>
      (Source.rewrite layout { name := source.text, text }).mapError .badTree

theorem rewriteAt_eq_ok_iff {store : Store} {layout : Json.Layout} {source : Path}
    {done : Rewritten} :
    rewriteAt store layout source = .ok done ↔
      ∃ text node, store.readText source = .ok text ∧ Markup.Node.parse text = .ok node ∧
        done = ⟨node.rewrite.1.print layout, node.rewrite.2⟩ := by
  unfold rewriteAt
  cases store.readText source with
  | error fault => simp
  | ok text =>
      simp only [mapError_eq_ok_iff, Source.rewrite_eq_ok_iff, Source.tree_eq_ok_iff]
      simp

/-- A file is rewritten if the system does not refuse to read it, and then the system has no part
in what becomes of it. -/
theorem rewriteFile_eq_ok_iff {store : Store} {refusals : Refusals} {layout : Json.Layout}
    {source destination : Path} {file : RewrittenFile} :
    rewriteFile store refusals layout source destination = .ok file ↔
      refusals source = none ∧ ∃ done, rewriteAt store layout source = .ok done ∧
        file = { source, destination, content := done.text, stats := done.stats } := by
  unfold rewriteFile rewriteAt Store.readAllowed
  cases refusals source with
  | some fault => simp
  | none =>
      cases store.readText source with
      | error fault => simp
      | ok text =>
          dsimp only
          cases Source.rewrite layout { name := source.text, text } with
          | error error => simp [mapError_eq_ok_iff]
          | ok done => simp [mapError_ok, eq_comm]

/-- A rewritten file as what became of its source. -/
def RewrittenFile.outcome (file : RewrittenFile) : Path × Rewritten :=
  (file.source, ⟨file.content, file.stats⟩)

/-! ### Where files come from and where they go -/

section

variable {host : Host} {request : Request} {store : Store} {report : Report}
  {settings : Settings} {selected : List Selected} {targets : List Path}
  {file other : RewrittenFile}

/-- Every file of a report was rewritten by the plan. -/
theorem Prepared.exists_rewriteFile
    (h : Prepared host request store report settings selected targets)
    (hfile : file ∈ report.files) :
    ∃ destination, rewriteFile store host.refusals (treeLayout settings request) file.source
      destination = .ok file := by
  have hmem : (.ok file : Except Failure RewrittenFile) ∈ report.files.map .ok :=
    List.mem_map_of_mem hfile
  rw [← h.files] at hmem
  obtain ⟨job, -, hjob⟩ := List.mem_map.mp hmem
  obtain ⟨-, done, -, rfl⟩ := rewriteFile_eq_ok_iff.mp hjob
  exact ⟨job.2, hjob⟩

theorem Prepared.rewriteAt_of_mem
    (h : Prepared host request store report settings selected targets)
    (hfile : file ∈ report.files) :
    rewriteAt store (treeLayout settings request) file.source =
      .ok ⟨file.content, file.stats⟩ := by
  obtain ⟨destination, hrewrite⟩ := h.exists_rewriteFile hfile
  obtain ⟨-, done, hdone, hsame⟩ := rewriteFile_eq_ok_iff.mp hrewrite
  rw [hdone, hsame]

/-- Every file of a report has its source and its destination by the plan. -/
theorem Prepared.jobs (h : Prepared host request store report settings selected targets) :
    report.files.map (fun file => (file.source, file.destination)) =
      (selected.map Selected.path).zip targets := by
  refine map_eq_of_map_eq_ok h.files fun job file hfile => ?_
  obtain ⟨-, done, -, rfl⟩ := rewriteFile_eq_ok_iff.mp hfile
  rfl

theorem Prepared.sources (h : Prepared host request store report settings selected targets) :
    report.files.map RewrittenFile.source = selected.map Selected.path := by
  have hjobs := congrArg (List.map Prod.fst) h.jobs
  rwa [List.map_map, List.map_fst_zip (Nat.le_of_eq (length_destinations h.planned).symm)] at hjobs

theorem Prepared.destinations (h : Prepared host request store report settings selected targets) :
    report.files.map RewrittenFile.destination = targets := by
  have hjobs := congrArg (List.map Prod.snd) h.jobs
  rwa [List.map_map, List.map_snd_zip (Nat.le_of_eq (length_destinations h.planned))] at hjobs

/-- The files of a report are those that were selected, in order, each with what became of it. -/
theorem Prepared.outcomes (h : Prepared host request store report settings selected targets) :
    (selected.map Selected.path).map (fun source =>
        (rewriteAt store (treeLayout settings request) source).map (source, ·)) =
      report.files.map fun file => .ok (RewrittenFile.outcome file) := by
  rw [← h.sources, List.map_map]
  apply List.map_congr_left
  intro file hfile
  simp only [Function.comp_apply, h.rewriteAt_of_mem hfile]
  rfl

theorem Prepared.exists_selected
    (h : Prepared host request store report settings selected targets)
    (hfile : file ∈ report.files) : ∃ found ∈ selected, found.path = file.source := by
  have hsource : file.source ∈ selected.map Selected.path := by
    rw [← h.sources]
    exact List.mem_map_of_mem hfile
  exact List.mem_map.mp hsource

theorem Prepared.exists_file (h : Prepared host request store report settings selected targets)
    (hfile : file ∈ report.files) :
    ∃ location bytes, store.locate true file.source = .ok (.entry location (.file bytes)) := by
  obtain ⟨found, hfound, hpath⟩ := h.exists_selected hfile
  obtain ⟨_, -, haccepted⟩ := Selection.accepted_of_mem_files h.found hfound
  obtain ⟨location, bytes, hfind⟩ := haccepted.exists_file
  exact ⟨location, bytes, hpath ▸ Store.find?_eq_some_iff.mp hfind⟩

/-- Two files that hold the same text become the same. -/
theorem Prepared.eq_of_readText (h : Prepared host request store report settings selected targets)
    (hfile : file ∈ report.files) (hother : other ∈ report.files)
    (hread : store.readText file.source = store.readText other.source) :
    file.content = other.content ∧ file.stats = other.stats := by
  obtain ⟨text, node, htext, hnode, hdone⟩ := rewriteAt_eq_ok_iff.mp (h.rewriteAt_of_mem hfile)
  obtain ⟨text', node', htext', hnode', hdone'⟩ :=
    rewriteAt_eq_ok_iff.mp (h.rewriteAt_of_mem hother)
  obtain rfl : text = text' := Except.ok.inj (htext.symm.trans (hread.trans htext'))
  obtain rfl : node = node' := Except.ok.inj (hnode.symm.trans hnode')
  exact Rewritten.mk.inj (hdone.trans hdone'.symm)

theorem outDir_of_check (h : request.check = .ok ()) :
    request.inPlace = true ∧ request.outDir = none ∨
      request.inPlace = false ∧ ∃ directory, request.outDir = some directory := by
  unfold Request.check at h
  split at h
  · simp at h
  · cases hplace : request.inPlace <;> cases hdirectory : request.outDir <;> simp_all

theorem Prepared.destination_eq (h : Prepared host request store report settings selected targets)
    (hplace : request.inPlace = true) (hfile : file ∈ report.files) :
    file.destination = file.source := by
  have hnone : request.outDir = none := by
    rcases outDir_of_check h.check with ⟨-, hnone⟩ | ⟨hnot, -⟩
    · exact hnone
    · simp [hplace] at hnot
  have hplanned := h.planned
  rw [Run.destinations, hnone, ← h.sources, ← h.destinations] at hplanned
  exact List.map_inj_left.mp (Except.ok.inj hplanned).symm file hfile

theorem mem_of_mem_pendingFiles (h : file ∈ pendingFiles request report) :
    file ∈ report.files := by
  unfold pendingFiles at h
  split at h
  · exact (List.mem_filter.mp h).1
  · exact h

end

/-! ### Sample trees -/

/-- The beginning of time. -/
def epoch : Clock := ⟨⟨0, 0⟩, 0⟩

/-- A tree that a run changes. -/
def flexTree : String :=
  "\x7b\"type\":\"element\",\"attrs\":[\x7b\"name\":\"fxFlex\"\x7d],\"children\":[]\x7d"

/-- A tree that a run leaves as it is. -/
def textTree : String := "\x7b\"type\":\"text\",\"children\":[]\x7d"

end Run
end FlexFold
