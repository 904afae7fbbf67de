import FlexFold.Manifest.Document
import FlexFold.Proofs.Attempt
import FlexFold.Proofs.Json.Records

/-!
Manifests and counters are recovered from their documents, with the order of everything that has
an order. Their numbers have to fit a machine word, and the point in time has to be spelled in a way
that is read as the same.
-/

namespace FlexFold

open Json (Layout Value Record optionalField)
open Json.Reader
open Decimal (maxWord)

variable {layout : Layout} {budget : Nat}

/-! ### Counters -/

namespace Stats

theorem recovers_count {n : Nat} (hn : n ≤ maxWord) :
    countReader.Recovers layout budget (countValue n) n :=
  recovers_natural hn "usize"

/-- The draft when all counters were met. -/
def toDraft (stats : Stats) : Draft where
  elementsVisited := some stats.elementsVisited
  directivesRewritten := some stats.directivesRewritten
  bindingsRewritten := some stats.bindingsRewritten
  elementsChanged := some stats.elementsChanged
  directives := some stats.directives

theorem finish_toDraft (stats : Stats) : record.finish stats.toDraft = .ok stats := rfl

/-- Every number in some counters. -/
def numbers (stats : Stats) : List Nat :=
  [stats.elementsVisited, stats.directivesRewritten, stats.bindingsRewritten,
    stats.elementsChanged] ++ stats.directives.values

theorem recovers {stats : Stats} (h : ∀ n ∈ stats.numbers, n ≤ maxWord) :
    record.reader.Recovers layout (budget + 2) stats.toValue stats := by
  simp only [numbers, List.forall_mem_append, List.forall_mem_cons] at h
  obtain ⟨⟨hvisited, hdirectives, hbindings, hchanged, -⟩, hvalues⟩ := h
  have hmap : (mapOf countReader).Recovers layout (budget + 1)
      (.object (stats.directives.entries.map fun entry => (entry.1, countValue entry.2)))
      stats.directives :=
    recovers_mapOf fun entry hentry => recovers_count (hvalues _ (List.mem_map_of_mem hentry))
  refine Record.recovers ?_ stats.finish_toDraft
  apply Gathers.cons rfl ((recovers_count hvisited).map _)
  apply Gathers.cons rfl ((recovers_count hdirectives).map _)
  apply Gathers.cons rfl ((recovers_count hbindings).map _)
  apply Gathers.cons rfl ((recovers_count hchanged).map _)
  apply Gathers.cons rfl (hmap.map _)
  exact .nil _

end Stats

namespace Manifest

open Stats (countReader countValue recovers_count)

/-! ### Parts of a manifest -/

theorem recovers_time {time : Timestamp} (h : Timestamp.parse time.text = .ok time) :
    timeReader.Recovers layout budget (.string time.text) time :=
  recovers_spelled (by rw [h]) _

/-- The draft when all totals were met. -/
def Metadata.toDraft (metadata : Metadata) : MetadataDraft where
  version := some metadata.version
  generatedAt := some metadata.generatedAt
  filesProcessed := some metadata.filesProcessed
  filesChanged := some metadata.filesChanged
  elementsVisited := some metadata.elementsVisited
  directivesRewritten := some metadata.directivesRewritten
  bindingsRewritten := some metadata.bindingsRewritten
  libraryVersion := metadata.libraryVersion.map some

theorem Metadata.finish_toDraft (metadata : Metadata) :
    Metadata.record.finish metadata.toDraft = .ok metadata := by
  cases metadata with
  | mk _ _ _ _ _ _ _ libraryVersion => cases libraryVersion <;> rfl

/-- Every number in the totals. -/
def Metadata.numbers (metadata : Metadata) : List Nat :=
  [metadata.filesProcessed, metadata.filesChanged, metadata.elementsVisited,
    metadata.directivesRewritten, metadata.bindingsRewritten]

theorem Metadata.recovers {metadata : Metadata} (h : ∀ n ∈ metadata.numbers, n ≤ maxWord)
    (htime : Timestamp.parse metadata.generatedAt.text = .ok metadata.generatedAt) :
    Metadata.record.reader.Recovers layout (budget + 1) metadata.toValue metadata := by
  simp only [numbers, List.forall_mem_cons] at h
  obtain ⟨hprocessed, hchanged, hvisited, hdirectives, hbindings, -⟩ := h
  have hlast : Gathers layout budget Metadata.record.gather
      { metadata.toDraft with libraryVersion := none }
      (optionalField "migrator_version" .string metadata.libraryVersion) metadata.toDraft :=
    gathers_optionalField (fun version => { metadata.toDraft with libraryVersion := version }) rfl
      metadata.libraryVersion fun s _ => (recovers_string s).nullable nofun
  refine Record.recovers ?_ metadata.finish_toDraft
  apply Gathers.cons rfl ((recovers_string metadata.version).map _)
  apply Gathers.cons rfl ((recovers_time htime).map _)
  apply Gathers.cons rfl ((recovers_count hprocessed).map _)
  apply Gathers.cons rfl ((recovers_count hchanged).map _)
  apply Gathers.cons rfl ((recovers_count hvisited).map _)
  apply Gathers.cons rfl ((recovers_count hdirectives).map _)
  apply Gathers.cons rfl ((recovers_count hbindings).map _)
  exact hlast

/-- The draft when all fields of a usage were met. -/
def Usage.toDraft (usage : Usage) : UsageDraft where
  count := some usage.count
  files := some usage.files

theorem Usage.finish_toDraft (usage : Usage) : Usage.record.finish usage.toDraft = .ok usage := rfl

theorem Usage.recovers {usage : Usage} (h : usage.count ≤ maxWord) :
    Usage.record.reader.Recovers layout (budget + 2) usage.toValue usage := by
  have hfiles : (array (some string)).Recovers layout (budget + 1)
      (.array (usage.files.map .string)) usage.files :=
    recovers_array fun file _ => recovers_string file
  refine Record.recovers ?_ usage.finish_toDraft
  apply Gathers.cons rfl ((recovers_count h).map _)
  apply Gathers.cons rfl (hfiles.map _)
  exact .nil _

/-- The draft when all fields of a line were met. -/
def Ranked.toDraft (line : Ranked) : RankedDraft where
  name := some line.name
  count := some line.count
  fileCount := some line.fileCount

theorem Ranked.finish_toDraft (line : Ranked) : Ranked.record.finish line.toDraft = .ok line := rfl

theorem Ranked.recovers {line : Ranked} (hcount : line.count ≤ maxWord)
    (hfiles : line.fileCount ≤ maxWord) :
    Ranked.record.reader.Recovers layout (budget + 1) line.toValue line := by
  refine Record.recovers ?_ line.finish_toDraft
  apply Gathers.cons rfl ((recovers_string line.name).map _)
  apply Gathers.cons rfl ((recovers_count hcount).map _)
  apply Gathers.cons rfl ((recovers_count hfiles).map _)
  exact .nil _

/-- The draft when all of the statistics were met. -/
def Statistics.toDraft (statistics : Statistics) : StatisticsDraft where
  filesMatched := some statistics.filesMatched
  processingTime := statistics.processingTime.map some
  topDirectives := some statistics.topDirectives

theorem Statistics.finish_toDraft (statistics : Statistics) :
    Statistics.record.finish statistics.toDraft = .ok statistics := by
  cases statistics with
  | mk _ processingTime _ => cases processingTime <;> rfl

/-- Every number in what was computed at the end. -/
def Statistics.numbers (statistics : Statistics) : List Nat :=
  statistics.filesMatched :: statistics.processingTime.toList ++
    statistics.topDirectives.flatMap fun line => [line.count, line.fileCount]

theorem Statistics.recovers {statistics : Statistics}
    (h : ∀ n ∈ statistics.numbers, n ≤ maxWord) :
    Statistics.record.reader.Recovers layout (budget + 3) statistics.toValue statistics := by
  simp only [numbers, List.forall_mem_append, List.forall_mem_cons] at h
  obtain ⟨⟨hmatched, htime⟩, hlines⟩ := h
  have htop : (array (some Ranked.record.reader)).Recovers layout (budget + 2)
      (.array (statistics.topDirectives.map Ranked.toValue)) statistics.topDirectives := by
    apply recovers_array
    intro line hline
    have hnumber : ∀ n ∈ [line.count, line.fileCount], n ≤ maxWord :=
      fun n hn => hlines n (List.mem_flatMap.mpr ⟨line, hline, hn⟩)
    exact Ranked.recovers (hnumber _ (by simp)) (hnumber _ (by simp))
  have htimed : Gathers layout (budget + 2) Statistics.record.gather
      { statistics.toDraft with processingTime := none, topDirectives := none }
      (optionalField "processing_time_ms" countValue statistics.processingTime)
      { statistics.toDraft with topDirectives := none } :=
    gathers_optionalField
      (fun time => { statistics.toDraft with processingTime := time, topDirectives := none }) rfl
      statistics.processingTime fun n hn =>
        (recovers_natural (htime n (Option.mem_toList.mpr hn)) "u64").nullable nofun
  refine Record.recovers ?_ statistics.finish_toDraft
  apply Gathers.cons rfl ((recovers_count hmatched).map _)
  apply htimed.append
  apply Gathers.cons rfl (htop.map _)
  exact .nil _

/-! ### Manifests -/

/-- The draft when all of a manifest was met. -/
def toDraft (manifest : Manifest) : Draft where
  metadata := some manifest.metadata
  directives := some manifest.directives
  statistics := manifest.statistics.map some

theorem finish_toDraft (manifest : Manifest) : record.finish manifest.toDraft = .ok manifest := by
  cases manifest with
  | mk _ _ statistics => cases statistics <;> rfl

/-- Every number in a manifest. -/
def numbers (manifest : Manifest) : List Nat :=
  manifest.metadata.numbers ++ manifest.directives.values.map Usage.count ++
    manifest.statistics.toList.flatMap Statistics.numbers

theorem recovers {manifest : Manifest} (h : ∀ n ∈ manifest.numbers, n ≤ maxWord)
    (htime : Timestamp.parse manifest.metadata.generatedAt.text =
      .ok manifest.metadata.generatedAt) :
    record.reader.Recovers layout (budget + 4) manifest.toValue manifest := by
  simp only [numbers, List.forall_mem_append] at h
  obtain ⟨⟨hmetadata, hcounts⟩, hstatistics⟩ := h
  have hmap : (mapOf Usage.record.reader).Recovers layout (budget + 3)
      (.object (manifest.directives.entries.map fun entry => (entry.1, entry.2.toValue)))
      manifest.directives := by
    apply recovers_mapOf
    intro entry hentry
    apply Usage.recovers
    apply hcounts
    exact List.mem_map_of_mem (List.mem_map_of_mem hentry)
  have hvalue : ∀ statistics ∈ manifest.statistics,
      Statistics.record.reader.nullable.Recovers layout (budget + 3) statistics.toValue
        (some statistics) := by
    intro statistics hmem
    have hnumbers : ∀ n ∈ statistics.numbers, n ≤ maxWord := fun n hn =>
      hstatistics n (List.mem_flatMap.mpr ⟨statistics, Option.mem_toList.mpr hmem, hn⟩)
    exact (Statistics.recovers hnumbers).nullable nofun
  have hlast : Gathers layout (budget + 3) record.gather
      { manifest.toDraft with statistics := none }
      (optionalField "statistics" Statistics.toValue manifest.statistics) manifest.toDraft :=
    gathers_optionalField (fun statistics => { manifest.toDraft with statistics := statistics }) rfl
      manifest.statistics hvalue
  refine Record.recovers ?_ manifest.finish_toDraft
  apply Gathers.cons rfl ((Metadata.recovers hmetadata htime).map _)
  apply Gathers.cons rfl (hmap.map _)
  exact hlast

/-- Whatever calls a manifest came from, it is read back from either layout as itself, and so are
counters: every total and count, the directives and the files of each in their order, and the
statistics if there are any. -/
theorem parse_print_of_fits {manifest : Manifest} {stats : Stats}
    (hmanifest : ∀ n ∈ manifest.numbers, n ≤ maxWord)
    (htime : Timestamp.parse manifest.metadata.generatedAt.text =
      .ok manifest.metadata.generatedAt)
    (hstats : ∀ n ∈ stats.numbers, n ≤ maxWord) :
    (Manifest.parse (manifest.print .compact) = .ok manifest ∧
        Manifest.parse (manifest.print .pretty) = .ok manifest) ∧
      Stats.parse (stats.print .compact) = .ok stats ∧
      Stats.parse (stats.print .pretty) = .ok stats := by
  have hone : ∀ layout, Manifest.parse (manifest.print layout) = .ok manifest :=
    fun _ => (recovers hmanifest htime).parse_eq_ok
  have hother : ∀ layout, Stats.parse (stats.print layout) = .ok stats :=
    fun _ => (Stats.recovers hstats).parse_eq_ok
  exact ⟨⟨hone .compact, hone .pretty⟩, hother .compact, hother .pretty⟩

/-- Counters up to the greatest word, with a name that has to be escaped. -/
def greatStats : Stats where
  elementsVisited := 18446744073709551615
  directivesRewritten := 18446744073709551615
  elementsChanged := 1
  directives := (FirstSeen.empty.insert "fxLayout" 18446744073709551614).insert "fx\"Flex\n" 1

/-- A manifest of two files whose counts add up to the greatest word. -/
def greatManifest : Manifest :=
  (((new { seconds := 1763520000, nanos := 120000000 }).addFile "b/\u00fc \"1\".json"
    greatStats).addFile "a.json"
      { directives := FirstSeen.empty.insert "fxLayout" 1 }).withStatistics 2 none

theorem ranking_great :
    ranking greatManifest.directives =
      [{ name := "fxLayout", count := 18446744073709551615, fileCount := 2 },
        { name := "fx\"Flex\n", count := 1, fileCount := 1 }] := by
  -- The sort does not evaluate, but it leaves alone what is in its order.
  rw [ranking, List.mergeSort_of_pairwise (by decide +kernel)]
  decide +kernel

theorem parse_print_of_fits_great :
    greatManifest.directives.keys = ["fxLayout", "fx\"Flex\n"] ∧
      Manifest.parse (greatManifest.print .compact) = .ok greatManifest ∧
      Manifest.parse (greatManifest.print .pretty) = .ok greatManifest ∧
      Stats.parse (greatStats.print .pretty) = .ok greatStats := by
  have hmanifest : ∀ n ∈ greatManifest.numbers, n ≤ maxWord := by
    have hstatistics : greatManifest.statistics =
        some { filesMatched := 2, processingTime := none,
               topDirectives := ranking greatManifest.directives } := rfl
    rw [numbers, hstatistics, ranking_great]
    decide +kernel
  have htime : Timestamp.parse greatManifest.metadata.generatedAt.text =
      .ok greatManifest.metadata.generatedAt :=
    Attempt.ok_of_toOption (by decide +kernel)
  have hstats : ∀ n ∈ greatStats.numbers, n ≤ maxWord := by decide +kernel
  have hprint := parse_print_of_fits hmanifest htime hstats
  exact ⟨by decide +kernel, hprint.1.1, hprint.1.2, hprint.2.2⟩

end Manifest

end FlexFold
