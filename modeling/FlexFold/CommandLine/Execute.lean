import FlexFold.CommandLine.Command
import FlexFold.Pipe
import FlexFold.Run

/-!
What the program prints and how it exits.
-/

namespace FlexFold.CommandLine

def programName : String := "fxlayout-migrator"

/-- The variable of the environment that names the file with the settings. -/
def configVariable : String := "FXLAYOUT_MIGRATOR_CONFIG"

/-- What the program leaves behind besides files. -/
structure Outcome where
  exitCode : UInt32 := 0
  standardOutput : String := ""
  standardError : String := ""
deriving DecidableEq, Repr

namespace Outcome

/-- The outcome of a command that failed. -/
def ofFailure (failure : Failure) : Outcome where
  exitCode := 1
  standardError := "Error: " ++ failure.message ++ "\n"

def ofReport (report : Report) : Outcome where
  standardOutput :=
    let files := Decimal.natText report.files.length
    let directives := Decimal.natText report.manifest.metadata.directivesRewritten
    "Migration successful!\n" ++ s!"  - Processed {files} files\n" ++
      s!"  - Rewrote {directives} directives\n"

end Outcome

/-! ### Stopping -/

def usage : String :=
  "Usage: fxlayout-migrator <COMMAND>\n\n" ++
  "Commands:\n" ++
  "  rewrite  Rewrite template tree files matching the given patterns\n" ++
  "  pipe     Rewrite a single template tree read from stdin and write it to stdout\n" ++
  "  help     Print this message or the help of the given subcommand(s)\n\n" ++
  "Options:\n" ++
  "  -h, --help     Print help\n" ++
  "  -V, --version  Print version\n"

def Fault.message : Fault → String
  | .unknownWord => "unexpected argument"
  | .unknownCommand => "unrecognized subcommand"
  | .noCommand => "a subcommand is required"
  | .missingValue => "a value is required"
  | .badNumber => "invalid digit found in string"
  | .conflict => "the argument cannot be used"
  | .missingOption => "the required argument --input was not provided"
  | .unexpectedValue => "unexpected value for a flag"

/-- The outcome of a command line without a command. -/
def Outcome.ofStop : Stop → Outcome
  | .help => { standardOutput := usage }
  | .version => { standardOutput := programName ++ " " ++ libraryVersion ++ "\n" }
  | .fault .noCommand => { exitCode := 2, standardError := usage }
  | .fault fault =>
      { exitCode := 2, standardError := "error: " ++ fault.message ++ "\n\n" ++ usage }

/-! ### Executing -/

/-- Execute a command with some bytes on the standard input. -/
def execute (host : Host) (input : ByteArray) (command : Command) (store : Store) :
    Outcome × Store :=
  match command with
  | .pipe compact =>
      match Pipe.rewrite compact input with
      | .error failure => (.ofFailure failure, store)
      | .ok text => ({ standardOutput := text }, store)
  | .rewrite request =>
      match run host request store with
      | .error failure store => (.ofFailure failure, store)
      | .ok report store => (.ofReport report, store)

/-- Whether a command reads the standard input. -/
def Command.readsInput : Command → Bool
  | .pipe _ => true
  | .rewrite _ => false

end FlexFold.CommandLine
