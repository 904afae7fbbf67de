import FlexFold.Glob.Paths
import FlexFold.Request
import FlexFold.Settings.Load
import FlexFold.Source

/-!
Everything that can go wrong in a run.
-/

namespace FlexFold

/-- Why a run failed. -/
inductive Failure where
  /-- A file could not be read, or a directory could not be made. -/
  | store (fault : StoreFault)
  | pattern (fault : Glob.PatternFault)
  | search (error : GlobError)
  | noFilesFound
  | badTree (error : SourceError)
  /-- A file could not be written. -/
  | output (path : Path) (fault : StoreFault)
  | settings (fault : Settings.LoadFault)
  | request (fault : RequestFault)
  /-- The bytes of the standard input are no text. -/
  | input (fault : Text.Utf8Fault)
deriving DecidableEq, Repr

def Failure.message : Failure → String
  | .store fault => "IO error: " ++ fault.message
  | .pattern fault => "Pattern error: " ++ fault.message
  | .search error => "Glob error: " ++ error.message
  | .noFilesFound => "No files found matching the provided patterns"
  | .badTree error => error.message
  | .output path fault => "Failed to write output to " ++ path.text ++ ": " ++ fault.message
  | .settings fault => "Configuration error: " ++ fault.message
  | .request fault => "Invalid input: " ++ fault.message
  | .input fault => "Input error: Failed to read from stdin: " ++ fault.message

end FlexFold
