import FlexFold.CommandLine.Words
import FlexFold.Decimal.Digits
import FlexFold.Request

/-!
The commands of the program and how they are written.
-/

namespace FlexFold.CommandLine

inductive Command where
  | rewrite (request : Request)
  | pipe (compact : Bool)
deriving DecidableEq, Repr

/-! ### Rewriting files -/

inductive RewriteOption where
  | input
  | outDir
  | manifest
  | config
  | jobs
  | exclude
deriving DecidableEq, Repr

inductive RewriteFlag where
  | inPlace
  | compact
  | verbose
  | dryRun
deriving DecidableEq, Repr

def number? (text : String) : Option Nat :=
  let digits := match text.toList with
    | '+' :: digits => digits
    | digits => digits
  if digits = [] ∨ !digits.all Decimal.isDigit then none
  else
    let n := Decimal.readOnto 0 digits
    if n ≤ Decimal.maxWord then some n else none

/-- The only value of an option. -/
def single (isSet : Bool) (values : List String) : Except Fault String :=
  match values with
  | [] => .error .missingValue
  | value :: _ => if isSet then .error .conflict else .ok value

/-- The only value of an option, which is a path. -/
def singlePath (present : Option Path) (values : List String) : Except Fault (Option Path) :=
  match single present.isSome values with
  | .error fault => .error fault
  | .ok text => if text = "" then .error .missingValue else .ok (some ⟨text⟩)

def rewriteLong? : String → Option (Switch RewriteOption RewriteFlag)
  | "input" => some (.option .input)
  | "out-dir" => some (.option .outDir)
  | "in-place" => some (.flag .inPlace)
  | "manifest" => some (.option .manifest)
  | "config" => some (.option .config)
  | "compact" => some (.flag .compact)
  | "verbose" => some (.flag .verbose)
  | "jobs" => some (.option .jobs)
  | "exclude" => some (.option .exclude)
  | "dry-run" => some (.flag .dryRun)
  | "help" => some .help
  | _ => none

def rewriteShort? : Char → Option (Switch RewriteOption RewriteFlag)
  | 'i' => some (.option .input)
  | 'o' => some (.option .outDir)
  | 'm' => some (.option .manifest)
  | 'c' => some (.option .config)
  | 'v' => some (.flag .verbose)
  | 'j' => some (.option .jobs)
  | 'e' => some (.option .exclude)
  | 'h' => some .help
  | _ => none

/-- Record an option. Patterns add up, all else is given once. -/
def setRewriteOption (o : RewriteOption) (values : List String) (request : Request) :
    Except Fault Request :=
  match o with
  | .input =>
      if values.isEmpty then .error .missingValue
      else .ok { request with input := request.input ++ values }
  | .exclude => .ok { request with exclude := request.exclude ++ values }
  | .outDir => (singlePath request.outDir values).map fun p => { request with outDir := p }
  | .manifest => (singlePath request.manifest values).map fun p => { request with manifest := p }
  | .config => (singlePath request.config values).map fun p => { request with config := p }
  | .jobs =>
      match single request.jobs.isSome values with
      | .error fault => .error fault
      | .ok text =>
          match number? text with
          | some n => .ok { request with jobs := some n }
          | none => .error .badNumber

/-- Record a flag, which is given once. -/
def setRewriteFlag (f : RewriteFlag) (request : Request) : Except Fault Request :=
  match f with
  | .inPlace =>
      if request.inPlace then .error .conflict else .ok { request with inPlace := true }
  | .compact =>
      if request.compact then .error .conflict else .ok { request with compact := true }
  | .verbose =>
      if request.verbose then .error .conflict else .ok { request with verbose := true }
  | .dryRun => if request.dryRun then .error .conflict else .ok { request with dryRun := true }

def rewriteGrammar : Grammar RewriteOption RewriteFlag Request where
  long? := rewriteLong?
  short? := rewriteShort?
  isGreedy o := o == .input || o == .exclude
  setOption := setRewriteOption
  setFlag := setRewriteFlag

/-- Take the file with the settings from the environment if no option names it. -/
def fillConfig (environment : Option String) (request : Request) : Except Fault Request :=
  match request.config, environment with
  | none, some text =>
      if text = "" then .error .missingValue else .ok { request with config := some ⟨text⟩ }
  | _, _ => .ok request

/-- Check what has to be given, and what must not be given together. -/
def checkRewrite (request : Request) : Except Fault Request :=
  if request.outDir.isSome && request.inPlace then .error .conflict
  else if request.input.isEmpty then .error .missingOption
  else .ok request

def parseRewrite (environment : Option String) (texts : List String) : Except Stop Command :=
  match rewriteGrammar.parse { input := [] } texts with
  | .error stop => .error stop
  | .ok request =>
      match fillConfig environment request >>= checkRewrite with
      | .error fault => .error (.fault fault)
      | .ok request => .ok (.rewrite request)

/-! ### Rewriting the standard input -/

/-- The grammar of `pipe`, which has only one flag. -/
def pipeGrammar : Grammar Empty Unit Bool where
  long?
    | "compact" => some (.flag ())
    | "help" => some .help
    | _ => none
  short?
    | 'h' => some .help
    | _ => none
  isGreedy := Empty.elim
  setOption o := o.elim
  setFlag _ compact := if compact then .error .conflict else .ok true

def parsePipe (texts : List String) : Except Stop Command :=
  (pipeGrammar.parse false texts).map .pipe

/-! ### Commands -/

/-- The grammar of what stands before a command. -/
def topGrammar : Grammar Empty Empty Unit where
  long?
    | "help" => some .help
    | "version" => some .version
    | _ => none
  short?
    | 'h' => some .help
    | 'V' => some .version
    | _ => none
  isGreedy := Empty.elim
  setOption o := o.elim
  setFlag f := f.elim

def commandNames : List String := ["rewrite", "pipe", "help"]

/-- The words after `help`: at most the name of one command. -/
def parseHelp : List String → Stop
  | [] => .help
  | [name] => if name ∈ commandNames then .help else .fault .unknownCommand
  | _ => .fault .unknownCommand

/-- The command of a command line, where `environment` names the file with the settings. -/
def parse (environment : Option String) (texts : List String) : Except Stop Command :=
  match texts with
  | [] => .error (.fault .noCommand)
  | "rewrite" :: rest => parseRewrite environment rest
  | "pipe" :: rest => parsePipe rest
  | "help" :: rest => .error (parseHelp rest)
  | ["--"] => .error (.fault .noCommand)
  | "--" :: name :: _ =>
      .error (.fault (if name ∈ commandNames then .unknownWord else .unknownCommand))
  | text :: _ =>
      match topGrammar.word text { state := () } with
      | .error (.fault .unknownWord) =>
          .error (.fault (if text.toList.head? = some '-' ∧ text ≠ "-" then .unknownWord
            else .unknownCommand))
      | .error stop => .error stop
      | .ok _ => .error (.fault .noCommand)

end FlexFold.CommandLine
