import FlexFold.Manifest.Basic
import FlexFold.Proofs.Markup.Census
import Mathlib

/-!
A manifest beside the files that it was made from. Its totals and the usage of every directive are
kept apart, so that they agree is an invariant of recording one file after the other.
-/

namespace FlexFold

/-- Updates by the entries of another map add to the weight of the values what they add one by
one. -/
theorem FirstSeen.sum_values_foldl_upsert {κ α β : Type} [DecidableEq κ] (weight : α → Nat)
    (f : β → Option α → α) (amount : β → Nat)
    (h : ∀ b value, weight (f b value) = (value.map weight).getD 0 + amount b)
    (entries : List (κ × β)) (map : FirstSeen κ α) :
    ((entries.foldl (fun map entry => map.upsert entry.1 (f entry.2)) map).values.map weight).sum =
      (map.values.map weight).sum + (entries.map fun entry => amount entry.2).sum := by
  induction entries generalizing map with
  | nil => rfl
  | cons entry entries ih =>
      rw [List.foldl_cons, ih, sum_values_upsert weight map entry.1 (h entry.2), List.map_cons,
        List.sum_cons, Nat.add_assoc]

namespace Manifest

open Markup (Node)

/-- The names of the directives that disappear from a tree, as the walk meets them. -/
def directivesIn (root : Node) : List String := Fold.directiveNames root.visited.flatten

/-- The manifest of some files whose trees were rewritten one after the other. -/
def ofTrees (now : Timestamp) (files : List (String × Node)) : Manifest :=
  files.foldl (fun manifest file => manifest.addFile file.1 file.2.rewrite.2) (new now)

/-- The names of the files whose trees hold a directive. -/
def filesWith (name : String) (files : List (String × Node)) : List String :=
  (files.filter fun file => name ∈ directivesIn file.2).map Prod.fst

/-- What a manifest says of the files that it was made from. -/
structure Reconciles (files : List (String × Node)) (manifest : Manifest) : Prop where
  filesProcessed : manifest.metadata.filesProcessed = files.length
  filesChanged :
    manifest.metadata.filesChanged = files.countP fun file => file.2.rewrite.1 ≠ file.2
  elementsVisited : manifest.metadata.elementsVisited =
    (files.map fun file => file.2.rewrite.2.elementsVisited).sum
  directivesRewritten : manifest.metadata.directivesRewritten =
    (files.map fun file => file.2.rewrite.2.directivesRewritten).sum
  bindingsRewritten : manifest.metadata.bindingsRewritten =
    (files.map fun file => file.2.rewrite.2.bindingsRewritten).sum
  /-- Each directive stands where the run met it first. -/
  keys : manifest.directives.keys =
    (files.flatMap fun file => directivesIn file.2).eraseDups
  /-- A directive without an entry is one that was used nowhere. -/
  usages : ∀ name, (manifest.directives.get? name).getD {} =
    { count := (files.map fun file => (file.2.rewrite.2.directives.get? name).getD 0).sum
      files := (filesWith name files).eraseDups }
  total :
    (manifest.directives.values.map Usage.count).sum = manifest.metadata.directivesRewritten

/-! ### Recording one file -/

theorem keys_addFile (manifest : Manifest) (file : String) (stats : Stats) :
    (manifest.addFile file stats).directives.keys =
      (manifest.directives.keys ++ stats.directives.keys).eraseDups :=
  FirstSeen.keys_foldl_upsert Prod.fst
    (fun entry (usage : Option Usage) => (usage.getD {}).add file entry.2) stats.directives.entries
    manifest.directives

theorem get?_addFile (manifest : Manifest) (file : String) (stats : Stats) (name : String) :
    (manifest.addFile file stats).directives.get? name =
      match stats.directives.get? name with
      | none => manifest.directives.get? name
      | some count => some (((manifest.directives.get? name).getD {}).add file count) := by
  have hfold := FirstSeen.get?_foldl_entries
    (fun count (usage : Option Usage) => (usage.getD {}).add file count) stats.directives
    manifest.directives name
  cases hcount : stats.directives.get? name <;> rw [hcount] at hfold <;> exact hfold

theorem total_addFile (manifest : Manifest) (file : String) (stats : Stats) :
    ((manifest.addFile file stats).directives.values.map Usage.count).sum =
      (manifest.directives.values.map Usage.count).sum + stats.directives.values.sum :=
  FirstSeen.sum_values_foldl_upsert Usage.count
    (fun count usage => (usage.getD {}).add file count) id
    (fun count usage => by cases usage <;> rfl) stats.directives.entries manifest.directives

/-- One more use in a file. The name of the file is listed once. -/
theorem Usage.add_eq (count more : Nat) (files : List String) (file : String) :
    Usage.add { count, files := files.eraseDups } file more =
      { count := count + more, files := (files ++ [file]).eraseDups } := by
  rw [Usage.add, eraseDups_concat]
  simp only [List.mem_eraseDups]

/-! ### The counters of one tree -/

theorem rewrite_counts (root : Node) :
    root.rewrite.2.directives.keys = (directivesIn root).eraseDups ∧
      root.rewrite.2.directivesRewritten = root.rewrite.2.directives.values.sum ∧
      ∀ name, (root.rewrite.2.directives.get? name = none ∧ name ∉ directivesIn root) ∨
        ∃ count, root.rewrite.2.directives.get? name = some count ∧ name ∈ directivesIn root := by
  rw [Node.rewrite_eq]
  have hcensus := Node.census_countFold root.visited
  refine ⟨hcensus.keys, hcensus.directivesRewritten, fun name => ?_⟩
  have hcount := hcensus.counts name
  by_cases hmem : name ∈ directivesIn root
  · exact .inr ⟨_, hcount.trans (if_pos hmem), hmem⟩
  · exact .inl ⟨hcount.trans (if_neg hmem), hmem⟩

theorem rewrite_isUnchanged_eq (root : Node) :
    root.rewrite.2.isUnchanged = decide (root.rewrite.1 = root) := by
  rw [Bool.eq_iff_iff, decide_eq_true_iff, Node.rewrite_isUnchanged_iff,
    ← Node.folded_eq_self_iff, Node.rewrite_eq]

/-! ### Recording all files -/

theorem reconciles_new (now : Timestamp) : Reconciles [] (new now) where
  filesProcessed := rfl
  filesChanged := rfl
  elementsVisited := rfl
  directivesRewritten := rfl
  bindingsRewritten := rfl
  keys := rfl
  usages _ := rfl
  total := rfl

theorem Reconciles.addFile {files : List (String × Node)} {manifest : Manifest}
    (h : Reconciles files manifest) (file : String × Node) :
    Reconciles (files ++ [file]) (manifest.addFile file.1 file.2.rewrite.2) := by
  obtain ⟨hkeys, htotal, hcounts⟩ := rewrite_counts file.2
  constructor
  case filesProcessed => simp [Manifest.addFile, h.filesProcessed]
  case filesChanged =>
    simp only [Manifest.addFile, h.filesChanged, rewrite_isUnchanged_eq, List.countP_append,
      List.countP_singleton]
    by_cases hsame : file.2.rewrite.1 = file.2 <;> simp [hsame]
  case elementsVisited => simp [Manifest.addFile, h.elementsVisited]
  case directivesRewritten => simp [Manifest.addFile, h.directivesRewritten]
  case bindingsRewritten => simp [Manifest.addFile, h.bindingsRewritten]
  case keys =>
    rw [keys_addFile, h.keys, hkeys, eraseDups_append_eraseDups, eraseDups_eraseDups_append,
      List.flatMap_append, List.flatMap_singleton]
  case usages =>
    intro name
    have husage := h.usages name
    rw [get?_addFile]
    obtain ⟨hnone, hmem⟩ | ⟨count, hsome, hmem⟩ := hcounts name
    · simp [hnone, hmem, husage, filesWith]
    · simp only [hsome, husage, Option.getD_some, Usage.add_eq]
      simp [hsome, hmem, filesWith]
  case total =>
    rw [total_addFile, h.total, ← htotal]
    rfl

theorem reconciles_ofTrees (now : Timestamp) (files : List (String × Node)) :
    Reconciles files (ofTrees now files) := by
  -- The manifest is made from the front, so the last file is the one that was recorded last.
  induction files using List.reverseRecOn with
  | nil => exact reconciles_new now
  | append_singleton files file ih =>
      rw [ofTrees, List.foldl_append]
      exact ih.addFile file

/-! ### The ranking -/

/-- The statistics leave everything else as it is. -/
theorem Reconciles.withStatistics {files : List (String × Node)} {manifest : Manifest}
    (h : Reconciles files manifest) (filesMatched : Nat) (processingTime : Option Nat) :
    Reconciles files (manifest.withStatistics filesMatched processingTime) where
  filesProcessed := h.filesProcessed
  filesChanged := h.filesChanged
  elementsVisited := h.elementsVisited
  directivesRewritten := h.directivesRewritten
  bindingsRewritten := h.bindingsRewritten
  keys := h.keys
  usages := h.usages
  total := h.total

/-- There are fewer directives than the ranking has room for. -/
theorem Reconciles.length_entries_le {files : List (String × Node)} {manifest : Manifest}
    (h : Reconciles files manifest) : manifest.directives.entries.length ≤ rankingSize := by
  have hplain : manifest.directives.keys ⊆ Fold.plainNames := by
    intro name hname
    rw [h.keys, List.mem_eraseDups, List.mem_flatMap] at hname
    obtain ⟨file, -, hname⟩ := hname
    exact of_decide_eq_true (List.mem_filter.mp hname).2
  have hlength : manifest.directives.keys.length ≤ Fold.plainNames.length :=
    (List.subperm_of_subset manifest.directives.nodup hplain).length_le
  rw [FirstSeen.keys, List.length_map] at hlength
  exact hlength.trans (by decide)

theorem ranking_perm {directives : FirstSeen String Usage}
    (h : directives.entries.length ≤ rankingSize) :
    (ranking directives).Perm (directives.entries.map fun entry =>
      { name := entry.1, count := entry.2.count, fileCount := entry.2.files.length }) := by
  rw [ranking, List.take_of_length_le (by rwa [List.length_mergeSort, List.length_map])]
  exact List.mergeSort_perm _ _

theorem sum_count_ranking {directives : FirstSeen String Usage}
    (h : directives.entries.length ≤ rankingSize) :
    ((ranking directives).map Ranked.count).sum = (directives.values.map Usage.count).sum := by
  rw [((ranking_perm h).map Ranked.count).sum_eq, FirstSeen.values, List.map_map, List.map_map]
  rfl

/-- The manifest of a run agrees with what was done to the files one by one, and its ranking
leaves no directive out. -/
theorem reconciles_withStatistics (now : Timestamp) (files : List (String × Node))
    (filesMatched : Nat) (processingTime : Option Nat) :
    let manifest := (ofTrees now files).withStatistics filesMatched processingTime
    Reconciles files manifest ∧
      ∃ statistics, manifest.statistics = some statistics ∧
        statistics.topDirectives.Perm (manifest.directives.entries.map fun entry =>
          { name := entry.1, count := entry.2.count, fileCount := entry.2.files.length }) ∧
        (statistics.topDirectives.map Ranked.count).sum =
          manifest.metadata.directivesRewritten := by
  have h := reconciles_ofTrees now files
  refine ⟨h.withStatistics filesMatched processingTime, _, rfl, ?_, ?_⟩
  · exact ranking_perm h.length_entries_le
  · exact (sum_count_ranking h.length_entries_le).trans h.total

end Manifest

end FlexFold
