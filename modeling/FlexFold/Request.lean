import FlexFold.Store.Path

/-!
What a run is asked to do.
-/

namespace FlexFold

structure Request where
  /-- Patterns of files to rewrite. -/
  input : List String
  /-- The directory where rewritten trees go. -/
  outDir : Option Path := none
  /-- Whether rewritten trees take the place of their files. -/
  inPlace : Bool := false
  /-- Where the manifest goes. -/
  manifest : Option Path := none
  /-- The file with the settings. -/
  config : Option Path := none
  compact : Bool := false
  verbose : Bool := false
  /-- The number of files that are rewritten at a time. -/
  jobs : Option Nat := none
  /-- Patterns of files to leave out. -/
  exclude : List String := []
  /-- Whether nothing is written. -/
  dryRun : Bool := false
deriving DecidableEq, Repr

inductive RequestFault where
  | noInput
  | noOutput
  | twoOutputs
  | noJobs
  | noFileName (source : Path)
  | collision (destination : Path)
  /-- No worker can be started. -/
  | noWorkers (reason : String)
deriving DecidableEq, Repr

def RequestFault.message : RequestFault → String
  | .noInput => "At least one input pattern must be provided"
  | .noOutput => "Either --out-dir or --in-place must be provided"
  | .twoOutputs => "--out-dir and --in-place cannot be combined"
  | .noJobs => "Number of jobs must be at least 1"
  | .noFileName source => "'" ++ source.text ++ "' has no file name"
  | .collision destination =>
      "Several inputs would be written to '" ++ destination.text ++ "'"
  | .noWorkers reason => "Cannot start worker threads: " ++ reason

namespace Request

def check (request : Request) : Except RequestFault Unit :=
  if request.input.isEmpty then .error .noInput
  else
    match request.outDir, request.inPlace with
    | none, false => .error .noOutput
    | some _, true => .error .twoOutputs
    | _, _ => if request.jobs = some 0 then .error .noJobs else .ok ()

end Request

end FlexFold
