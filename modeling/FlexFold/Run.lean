import FlexFold.Manifest.Document
import FlexFold.Selection
import FlexFold.Store.Write

/-!
A run: files are selected, read and rewritten, and only when every one of them is done is anything
written. Files are rewritten by several workers at a time. They are written one after the other in
the order of their selection, and the manifest goes last.
-/

namespace FlexFold

structure RewrittenFile where
  source : Path
  destination : Path
  content : String
  stats : Stats
deriving DecidableEq

/-- What a run has done. -/
structure Report where
  files : List RewrittenFile
  manifest : Manifest
  /-- The size of all files that were read. -/
  bytesProcessed : Nat
deriving DecidableEq

/-- What a run knows of the time: when it writes its manifest, and how many milliseconds it
takes. -/
structure Clock where
  now : Timestamp
  elapsed : Nat

/-- The system that a run meets, as far as its store does not tell. -/
structure Host extends Clock where
  /-- What it refuses to read. -/
  refusals : Refusals := fun _ => none
  /-- Why no workers can be started for a number of jobs, if that is so. -/
  noWorkers? : Option Nat → Option String := fun _ => none
  /-- The position of the failure that is kept where several files fail, which depends on the
  worker that is done first. -/
  kept : List Failure → Nat := fun _ => 0

/-- A system that refuses nothing. -/
def Host.ofClock (clock : Clock) : Host := { clock with }

instance : Coe Clock Host := ⟨Host.ofClock⟩

namespace Run

/-! ### Preparing -/

/-- The settings of a request: those of its file, with its own patterns in front. -/
def settings (store : Store) (request : Request) (refusals : Refusals := fun _ => none) :
    Except Settings.LoadFault Settings :=
  let merged (loaded : Settings) : Settings :=
    Settings.merge { loaded with content := request.input, exclude := request.exclude } loaded
  match request.config with
  | none => .ok (merged { workingDirectory := store.workingDirectory })
  | some path => (Settings.load store path refusals).map merged

/-- Where the trees of some files go in a directory, after other destinations were taken. -/
def destinationsIn (directory : Path) :
    (taken : List Path) → List Path → Except RequestFault (List Path)
  | _, [] => .ok []
  | taken, source :: sources =>
      match source.fileName? with
      | none => .error (.noFileName source)
      | some name =>
          let destination := directory.join name
          if taken.any destination.same then .error (.collision destination)
          else (destinationsIn directory (destination :: taken) sources).map (destination :: ·)

/-- Where the tree of each file goes. No two files go to the same path. -/
def destinations (request : Request) (sources : List Path) : Except RequestFault (List Path) :=
  match request.outDir with
  | none => .ok sources
  | some directory => destinationsIn directory [] sources

/-- What a run is about to do. -/
structure Plan where
  settings : Settings
  selected : List Selected
  destinations : List Path

/-- Every file with the path where its tree goes. -/
def Plan.jobs (plan : Plan) : List (Path × Path) :=
  (plan.selected.map Selected.path).zip plan.destinations

def plan (request : Request) (store : Store) (refusals : Refusals) : Except Failure Plan := do
  request.check.mapError .request
  let settings ← (settings store request refusals).mapError .settings
  let selected ← Selection.files store settings refusals
  if selected.isEmpty then .error .noFilesFound
  let destinations ← (destinations request (selected.map Selected.path)).mapError .request
  .ok { settings, selected, destinations }

/-- Start the workers for a number of jobs. -/
def startWorkers (host : Host) (jobs : Option Nat) : Except RequestFault Unit :=
  match host.noWorkers? jobs with
  | none => .ok ()
  | some reason => .error (.noWorkers reason)

/-- The layout of the trees that a run writes. -/
def treeLayout (settings : Settings) (request : Request) : Json.Layout :=
  if settings.pretty && !request.compact then .pretty else .compact

def rewriteFile (store : Store) (refusals : Refusals) (layout : Json.Layout)
    (source destination : Path) : Except Failure RewrittenFile :=
  match store.readAllowed refusals source with
  | .error fault => .error (.store fault)
  | .ok text =>
      match Source.rewrite layout { name := source.text, text } with
      | .error error => .error (.badTree error)
      | .ok done => .ok { source, destination, content := done.text, stats := done.stats }

def failure? {α : Type} : Except Failure α → Option Failure
  | .error failure => some failure
  | .ok _ => none

/-- The results of jobs that are done at the same time. If some of them fail, one failure is kept,
and not always the first. -/
def together {α : Type} (kept : List Failure → Nat) (results : List (Except Failure α)) :
    Except Failure (List α) :=
  match results.filterMap failure? with
  | [] => .ok (results.filterMap Except.toOption)
  | first :: others => .error ((first :: others).getD (kept (first :: others)) first)

def manifestOf (clock : Clock) (files : List RewrittenFile) : Manifest :=
  let counted := files.foldl (fun manifest file =>
    manifest.addFile file.source.text file.stats) (Manifest.new clock.now)
  counted.withStatistics files.length (some clock.elapsed)

namespace Plan

/-- What becomes of every file. -/
def results (plan : Plan) (request : Request) (store : Store) (refusals : Refusals) :
    List (Except Failure RewrittenFile) :=
  plan.jobs.map fun job =>
    rewriteFile store refusals (treeLayout plan.settings request) job.1 job.2

def report (plan : Plan) (clock : Clock) (files : List RewrittenFile) : Report where
  files
  manifest := manifestOf clock files
  bytesProcessed := plan.selected.foldl (fun n file => n + file.size) 0

end Plan

/-- Do everything that a run does before it writes. -/
def prepare (host : Host) (request : Request) (store : Store) : Except Failure Report := do
  let plan ← plan request store host.refusals
  (startWorkers host request.jobs).mapError .request
  let files ← together host.kept (plan.results request store host.refusals)
  .ok (plan.report host.toClock files)

/-! ### Writing -/

/-- Write a file, and first of all the directories above it that are missing. -/
def writeText (path : Path) (text : String) : Store.Task Failure Unit := fun store =>
  let makeParent : Store.Task StoreFault Unit := match path.parent? with
    | none => pure ()
    | some parent => Store.makeDirectories parent
  match makeParent store with
  | .error fault store => .error (.store fault) store
  | .ok () store =>
      match Store.replaceFile path text.toUTF8 store with
      | .error fault store => .error (.output path fault) store
      | .ok () store => .ok () store

/-- The files that have to be written: all, or those that changed if they are written in place. -/
def pendingFiles (request : Request) (report : Report) : List RewrittenFile :=
  if request.inPlace then report.files.filter fun file => !file.stats.isUnchanged
  else report.files

def manifestLayout (request : Request) : Json.Layout :=
  if request.compact then .compact else .pretty

def write (request : Request) (report : Report) : Store.Task Failure Unit := do
  (pendingFiles request report).forM fun file => writeText file.destination file.content
  match request.manifest with
  | none => pure ()
  | some path => writeText path (report.manifest.print (manifestLayout request))

end Run

def run (host : Host) (request : Request) : Store.Task Failure Report := fun store =>
  match Run.prepare host request store with
  | .error failure => .error failure store
  | .ok report =>
      if request.dryRun then .ok report store
      else
        match Run.write request report store with
        | .error failure store => .error failure store
        | .ok () store => .ok report store

end FlexFold
