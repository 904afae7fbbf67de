import FlexFold.Stats
import FlexFold.Timestamp

/-!
The manifest of a run: which directives were rewritten, how often and in which files.
-/

namespace FlexFold

/-- The version of the library that a manifest names. -/
def libraryVersion : String := "0.1.0"

namespace Manifest

structure Metadata where
  /-- The version of the manifest format. -/
  version : String := "1.0.0"
  generatedAt : Timestamp
  filesProcessed : Nat := 0
  filesChanged : Nat := 0
  elementsVisited : Nat := 0
  directivesRewritten : Nat := 0
  bindingsRewritten : Nat := 0
  libraryVersion : Option String := some FlexFold.libraryVersion
deriving DecidableEq

/-- How often a directive was rewritten, and in which files. -/
structure Usage where
  count : Nat := 0
  files : List String := []
deriving DecidableEq

/-- One line of the ranking of directives. -/
structure Ranked where
  name : String
  count : Nat
  fileCount : Nat
deriving DecidableEq

/-- What is computed when the run is over. -/
structure Statistics where
  filesMatched : Nat
  processingTime : Option Nat
  topDirectives : List Ranked
deriving DecidableEq

end Manifest

structure Manifest where
  metadata : Manifest.Metadata
  directives : FirstSeen String Manifest.Usage := ∅
  statistics : Option Manifest.Statistics := none
deriving DecidableEq

namespace Manifest

def new (now : Timestamp) : Manifest := { metadata := { generatedAt := now } }

def Usage.add (usage : Usage) (file : String) (count : Nat) : Usage where
  count := usage.count + count
  files := if file ∈ usage.files then usage.files else usage.files ++ [file]

/-- Record what was done to one file. -/
def addFile (manifest : Manifest) (file : String) (stats : Stats) : Manifest where
  metadata :=
    { manifest.metadata with
      filesProcessed := manifest.metadata.filesProcessed + 1
      filesChanged := manifest.metadata.filesChanged + if stats.isUnchanged then 0 else 1
      elementsVisited := manifest.metadata.elementsVisited + stats.elementsVisited
      directivesRewritten := manifest.metadata.directivesRewritten + stats.directivesRewritten
      bindingsRewritten := manifest.metadata.bindingsRewritten + stats.bindingsRewritten }
  directives := stats.directives.entries.foldl (fun directives entry =>
    directives.upsert entry.1 fun usage => (usage.getD {}).add file entry.2) manifest.directives
  statistics := manifest.statistics

/-- The number of directives that the ranking lists. -/
def rankingSize : Nat := 10

/-- The directives in the order of their counts, the most frequent first. Of equal counts the one
that was seen first comes first. -/
def ranking (directives : FirstSeen String Usage) : List Ranked :=
  ((directives.entries.map fun entry =>
    { name := entry.1, count := entry.2.count, fileCount := entry.2.files.length }).mergeSort
      fun a b => b.count ≤ a.count).take rankingSize

/-- Compute what is computed when the run is over. -/
def withStatistics (manifest : Manifest) (filesMatched : Nat)
    (processingTime : Option Nat) : Manifest :=
  { manifest with
    statistics := some
      { filesMatched, processingTime, topDirectives := ranking manifest.directives } }

end Manifest

end FlexFold
