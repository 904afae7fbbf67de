import FlexFold.Store.Path
import FlexFold.Store.Basic

/-!
The settings of a run, and how two sets of settings are merged.
-/

namespace FlexFold

/-- What a run selects and how it writes. -/
structure Settings where
  /-- Patterns of files to rewrite. -/
  content : List String := []
  /-- Patterns of files to leave out. -/
  exclude : List String := []
  /-- Whether trees are laid out over several lines. -/
  pretty : Bool := true
  /-- The greatest size of a file in bytes. -/
  maxFileSize : Nat := 10 * 1024 * 1024
  /-- Whether files may be reached through links, as long as they stand in the working
  directory. -/
  allowSymlinks : Bool := false
  workingDirectory : Location
deriving DecidableEq

namespace Settings

/-- Put the patterns that are new at the end, each once. -/
def mergePatterns (first second : List String) : List String :=
  second.foldl (fun patterns p => if p ∈ patterns then patterns else patterns ++ [p]) first

/-- Merge two sets of settings. Patterns of both count; for all else the second set wins, but
for the working directory. -/
def merge (first second : Settings) : Settings where
  content := mergePatterns first.content second.content
  exclude := mergePatterns first.exclude second.exclude
  pretty := second.pretty
  maxFileSize := second.maxFileSize
  allowSymlinks := second.allowSymlinks
  workingDirectory := first.workingDirectory

end Settings

end FlexFold
