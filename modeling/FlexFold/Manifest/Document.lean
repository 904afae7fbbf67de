import FlexFold.Manifest.Basic
import FlexFold.Stats.Document

/-!
Manifests as JSON documents. Fields are written in a fixed order, and optional ones are left out
if they have no value.
-/

namespace FlexFold.Manifest

open Json (Value Record Reader Layout Cause optionalField required)
open Stats (countValue countReader)

/-! ### Writing -/

def Metadata.toValue (metadata : Metadata) : Value :=
  .object ([
    ("version", .string metadata.version),
    ("generated_at", .string metadata.generatedAt.text),
    ("files_processed", countValue metadata.filesProcessed),
    ("files_changed", countValue metadata.filesChanged),
    ("elements_visited", countValue metadata.elementsVisited),
    ("directives_rewritten", countValue metadata.directivesRewritten),
    ("bindings_rewritten", countValue metadata.bindingsRewritten)] ++
    optionalField "migrator_version" .string metadata.libraryVersion)

/-- The usage of a directive as an object. -/
def Usage.toValue (usage : Usage) : Value :=
  .object [
    ("count", countValue usage.count),
    ("files", .array (usage.files.map .string))]

/-- A line of the ranking as an object. -/
def Ranked.toValue (ranked : Ranked) : Value :=
  .object [
    ("name", .string ranked.name),
    ("count", countValue ranked.count),
    ("file_count", countValue ranked.fileCount)]

/-- What was computed at the end as an object. -/
def Statistics.toValue (statistics : Statistics) : Value :=
  .object (("files_matched", countValue statistics.filesMatched) ::
    optionalField "processing_time_ms" countValue statistics.processingTime ++
    [("top_directives", .array (statistics.topDirectives.map Ranked.toValue))])

def toValue (manifest : Manifest) : Value :=
  .object ([
    ("metadata", manifest.metadata.toValue),
    ("directives", .object (manifest.directives.entries.map fun entry =>
      (entry.1, entry.2.toValue)))] ++
    optionalField "statistics" Statistics.toValue manifest.statistics)

def print (layout : Layout) (manifest : Manifest) : String := manifest.toValue.text layout

/-! ### Reading -/

/-- A point in time. -/
def timeReader : Reader Timestamp :=
  Reader.spelled "an RFC 3339 formatted date and time string" fun text =>
    match Timestamp.parse text with
    | .ok time => .ok time
    | .error fault => .error (.invalidTime fault.message)

/-- The totals that were met so far. -/
structure MetadataDraft where
  version : Option String := none
  generatedAt : Option Timestamp := none
  filesProcessed : Option Nat := none
  filesChanged : Option Nat := none
  elementsVisited : Option Nat := none
  directivesRewritten : Option Nat := none
  bindingsRewritten : Option Nat := none
  libraryVersion : Option (Option String) := none

def Metadata.record : Record MetadataDraft Metadata where
  name := "ManifestMetadata"
  fields := [
    .slot "version" MetadataDraft.version
      (fun draft s => { draft with version := some s }) Reader.string,
    .slot "generated_at" MetadataDraft.generatedAt
      (fun draft t => { draft with generatedAt := some t }) timeReader,
    .slot "files_processed" MetadataDraft.filesProcessed
      (fun draft n => { draft with filesProcessed := some n }) countReader,
    .slot "files_changed" MetadataDraft.filesChanged
      (fun draft n => { draft with filesChanged := some n }) countReader,
    .slot "elements_visited" MetadataDraft.elementsVisited
      (fun draft n => { draft with elementsVisited := some n }) countReader,
    .slot "directives_rewritten" MetadataDraft.directivesRewritten
      (fun draft n => { draft with directivesRewritten := some n }) countReader,
    .slot "bindings_rewritten" MetadataDraft.bindingsRewritten
      (fun draft n => { draft with bindingsRewritten := some n }) countReader,
    .slot "migrator_version" MetadataDraft.libraryVersion
      (fun draft s => { draft with libraryVersion := some s }) Reader.string.nullable]
  start := {}
  finish draft := do
    let version ← required "version" draft.version
    let generatedAt ← required "generated_at" draft.generatedAt
    let filesProcessed ← required "files_processed" draft.filesProcessed
    let filesChanged ← required "files_changed" draft.filesChanged
    let elementsVisited ← required "elements_visited" draft.elementsVisited
    let directivesRewritten ← required "directives_rewritten" draft.directivesRewritten
    let bindingsRewritten ← required "bindings_rewritten" draft.bindingsRewritten
    .ok { version, generatedAt, filesProcessed, filesChanged, elementsVisited,
          directivesRewritten, bindingsRewritten, libraryVersion := draft.libraryVersion.join }
  lenient := false

/-- The usage that was met so far. -/
structure UsageDraft where
  count : Option Nat := none
  files : Option (List String) := none

/-- How the usage of a directive is read. -/
def Usage.record : Record UsageDraft Usage where
  name := "ManifestDirectiveInfo"
  fields := [
    .slot "count" UsageDraft.count (fun draft n => { draft with count := some n }) countReader,
    .slot "files" UsageDraft.files (fun draft fs => { draft with files := some fs })
      (Reader.array (some Reader.string))]
  start := {}
  finish draft := do
    let count ← required "count" draft.count
    let files ← required "files" draft.files
    .ok { count, files }
  lenient := false

/-- The line of the ranking that was met so far. -/
structure RankedDraft where
  name : Option String := none
  count : Option Nat := none
  fileCount : Option Nat := none

/-- How a line of the ranking is read. -/
def Ranked.record : Record RankedDraft Ranked where
  name := "TopDirective"
  fields := [
    .slot "name" RankedDraft.name (fun draft s => { draft with name := some s }) Reader.string,
    .slot "count" RankedDraft.count (fun draft n => { draft with count := some n }) countReader,
    .slot "file_count" RankedDraft.fileCount
      (fun draft n => { draft with fileCount := some n }) countReader]
  start := {}
  finish draft := do
    let name ← required "name" draft.name
    let count ← required "count" draft.count
    let fileCount ← required "file_count" draft.fileCount
    .ok { name, count, fileCount }
  lenient := false

/-- The statistics that were met so far. -/
structure StatisticsDraft where
  filesMatched : Option Nat := none
  processingTime : Option (Option Nat) := none
  topDirectives : Option (List Ranked) := none

def Statistics.record : Record StatisticsDraft Statistics where
  name := "ManifestStatistics"
  fields := [
    .slot "files_matched" StatisticsDraft.filesMatched
      (fun draft n => { draft with filesMatched := some n }) countReader,
    .slot "processing_time_ms" StatisticsDraft.processingTime
      (fun draft n => { draft with processingTime := some n }) (Reader.natural "u64").nullable,
    .slot "top_directives" StatisticsDraft.topDirectives
      (fun draft rs => { draft with topDirectives := some rs })
      (Reader.array (some Ranked.record.reader))]
  start := {}
  finish draft := do
    let filesMatched ← required "files_matched" draft.filesMatched
    let topDirectives ← required "top_directives" draft.topDirectives
    .ok { filesMatched, processingTime := draft.processingTime.join, topDirectives }
  lenient := false

/-- What was met of a manifest so far. -/
structure Draft where
  metadata : Option Metadata := none
  directives : Option (FirstSeen String Usage) := none
  statistics : Option (Option Statistics) := none

def record : Record Draft Manifest where
  name := "Manifest"
  fields := [
    .slot "metadata" Draft.metadata (fun draft m => { draft with metadata := some m })
      Metadata.record.reader,
    .slot "directives" Draft.directives (fun draft map => { draft with directives := some map })
      (Reader.mapOf Usage.record.reader),
    .slot "statistics" Draft.statistics (fun draft s => { draft with statistics := some s })
      Statistics.record.reader.nullable]
  start := {}
  finish draft := do
    let metadata ← required "metadata" draft.metadata
    let directives ← required "directives" draft.directives
    .ok { metadata, directives, statistics := draft.statistics.join }
  lenient := false

def parse (source : String) : Except Json.Error Manifest := record.reader.parse source

end FlexFold.Manifest
