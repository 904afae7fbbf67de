import FlexFold.Proofs.Manifest.Reconcile
import Mathlib.Data.List.Induction

/-!
The ranking of a manifest. The sort behind it is stable and a directive keeps the place where it
was seen first, however late its count grows, so of equal counts the directive that was seen first
comes first, also where the ranking is cut off.
-/

namespace FlexFold

/-! ### Orders that are kept -/

/-- First occurrences stand in the order in which they occur. -/
theorem pairwise_idxOf_eraseDups {α : Type} [DecidableEq α] (l : List α) :
    l.eraseDups.Pairwise fun a b => l.idxOf a < l.idxOf b := by
  induction l using List.reverseRecOn with
  | nil => simp
  | append_singleton l a ih =>
      have hkeep : ∀ b ∈ l.eraseDups, (l ++ [a]).idxOf b = l.idxOf b := by
        intro b hb
        rw [List.idxOf_append, if_pos (List.mem_eraseDups.mp hb)]
      have hold : l.eraseDups.Pairwise fun b c => (l ++ [a]).idxOf b < (l ++ [a]).idxOf c :=
        ih.imp_of_mem fun hb hc hlt => by rwa [hkeep _ hb, hkeep _ hc]
      rw [eraseDups_concat]
      split
      · exact hold
      · next hnew =>
          refine List.pairwise_append.mpr ⟨hold, List.pairwise_singleton .., fun b hb c hc => ?_⟩
          have hlast : (l ++ [a]).idxOf a = l.length := by
            simp [List.idxOf_append, hnew]
          rw [List.mem_singleton.mp hc, hlast, hkeep b hb, List.idxOf_lt_length_iff]
          exact List.mem_eraseDups.mp hb

/-- A stable sort keeps the order of what ties. -/
theorem pairwise_mergeSort_of_pairwise {α : Type} {le : α → α → Bool} {before : α → α → Prop}
    (htrans : ∀ a b c, le a b → le b c → le a c) (htotal : ∀ a b, le a b || le b a)
    {l : List α} (h : l.Pairwise before) :
    (l.mergeSort le).Pairwise fun a b => le a b ∧ (le b a → before a b) := by
  -- The sort is that of the elements with their positions, where no two elements tie.
  have hsorted := List.pairwise_mergeSort (List.zipIdxLE_trans htrans) (List.zipIdxLE_total htotal)
    l.zipIdx
  have hperm := List.mergeSort_perm l.zipIdx (List.zipIdxLE le)
  have hpositions : ((l.zipIdx.mergeSort (List.zipIdxLE le)).map Prod.snd).Nodup := by
    rw [(hperm.map Prod.snd).nodup_iff, List.zipIdx_map_snd]
    exact List.nodup_range'
  rw [← List.mergeSort_zipIdx, List.pairwise_map]
  refine (hsorted.and (List.pairwise_map.mp hpositions)).imp_of_mem fun {a b} ha hb hab => ?_
  obtain ⟨hle, hne⟩ := hab
  have hget : ∀ x ∈ l.zipIdx.mergeSort (List.zipIdxLE le), l[x.2]? = some x.1 :=
    fun x hx => List.mem_zipIdx_iff_getElem?.mp (hperm.mem_iff.mp hx)
  obtain ⟨hi, ha⟩ := List.getElem?_eq_some_iff.mp (hget a ha)
  obtain ⟨hj, hb⟩ := List.getElem?_eq_some_iff.mp (hget b hb)
  rw [List.zipIdxLE] at hle
  split at hle
  · next hab =>
      refine ⟨hab, fun hba => ?_⟩
      rw [if_pos hba, decide_eq_true_eq] at hle
      rw [← ha, ← hb]
      exact List.pairwise_iff_getElem.mp h _ _ hi hj (Nat.lt_of_le_of_ne hle hne)
  · cases hle

namespace Manifest

variable {directives : FirstSeen String Usage} {seen : List String} {lines : List Ranked}

/-! ### The lines of a ranking -/

/-- Whether a line comes before another one: it has a greater count, or the same count and its
directive was seen earlier. -/
def Ranked.Precedes (seen : List String) (a b : Ranked) : Prop :=
  b.count < a.count ∨ b.count = a.count ∧ seen.idxOf a.name < seen.idxOf b.name

/-- The line of a directive. -/
def Ranked.ofEntry (entry : String × Usage) : Ranked :=
  { name := entry.1, count := entry.2.count, fileCount := entry.2.files.length }

/-- All lines in the order of the ranking. -/
def ranked (directives : FirstSeen String Usage) : List Ranked :=
  (directives.entries.map Ranked.ofEntry).mergeSort fun a b => b.count ≤ a.count

theorem ranking_eq (directives : FirstSeen String Usage) :
    ranking directives = (ranked directives).take rankingSize := rfl

theorem ranked_perm (directives : FirstSeen String Usage) :
    (ranked directives).Perm (directives.entries.map Ranked.ofEntry) := List.mergeSort_perm _ _

theorem mem_ranked_iff {line : Ranked} :
    line ∈ ranked directives ↔ ∃ usage, directives.get? line.name = some usage ∧
      line.count = usage.count ∧ line.fileCount = usage.files.length := by
  rw [(ranked_perm directives).mem_iff, List.mem_map]
  constructor
  · rintro ⟨⟨name, usage⟩, hentry, rfl⟩
    exact ⟨usage, (FirstSeen.mem_entries_iff directives name usage).mp hentry, rfl, rfl⟩
  · obtain ⟨name, count, fileCount⟩ := line
    rintro ⟨usage, hget, rfl, rfl⟩
    exact ⟨(name, usage), (FirstSeen.mem_entries_iff directives name usage).mpr hget, rfl⟩

theorem nodup_ranked (directives : FirstSeen String Usage) :
    ((ranked directives).map Ranked.name).Nodup := by
  rw [((ranked_perm directives).map Ranked.name).nodup_iff, List.map_map]
  exact directives.nodup

theorem pairwise_ranked (h : directives.keys = seen.eraseDups) :
    (ranked directives).Pairwise (Ranked.Precedes seen) := by
  have hseen : (directives.entries.map Ranked.ofEntry).Pairwise fun a b =>
      seen.idxOf a.name < seen.idxOf b.name := by
    have hkeys : directives.entries.Pairwise fun a b =>
        seen.idxOf a.1 < seen.idxOf b.1 := by
      rw [← List.pairwise_map (f := Prod.fst) (R := fun a b =>
        seen.idxOf a < seen.idxOf b)]
      change directives.keys.Pairwise _
      rw [h]
      exact pairwise_idxOf_eraseDups seen
    exact List.pairwise_map.mpr hkeys
  refine (pairwise_mergeSort_of_pairwise ?_ ?_ hseen).imp fun {a b} ⟨hle, htie⟩ => ?_
  · intro a b c hab hbc
    simp only [decide_eq_true_eq] at hab hbc ⊢
    exact hbc.trans hab
  · intro a b
    simp only [Bool.or_eq_true, decide_eq_true_eq]
    exact Nat.le_total _ _
  · simp only [decide_eq_true_eq] at hle htie
    rcases Nat.lt_or_eq_of_le hle with hlt | heq
    · exact .inl hlt
    · exact .inr ⟨heq, htie heq.ge⟩

/-! ### The first lines -/

/-- What a ranking lists of the directives of a manifest, which were seen in the order of their
first sightings. -/
structure IsRanking (seen : List String) (directives : FirstSeen String Usage)
    (lines : List Ranked) : Prop where
  length : lines.length = min 10 directives.entries.length
  nodup : (lines.map Ranked.name).Nodup
  usages : ∀ line ∈ lines, ∃ usage, directives.get? line.name = some usage ∧
    line.count = usage.count ∧ line.fileCount = usage.files.length
  ordered : lines.Pairwise (Ranked.Precedes seen)
  /-- A directive that is not listed would come after every one that is. -/
  leftOut : ∀ name usage, directives.get? name = some usage → name ∉ lines.map Ranked.name →
    ∀ line ∈ lines, usage.count < line.count ∨
      usage.count = line.count ∧ seen.idxOf line.name < seen.idxOf name

theorem isRanking_ranking (h : directives.keys = seen.eraseDups) :
    IsRanking seen directives (ranking directives) := by
  have hsplit : ranking directives ++ (ranked directives).drop rankingSize = ranked directives := by
    rw [ranking_eq, List.take_append_drop]
  have hsorted := pairwise_ranked h
  rw [← hsplit] at hsorted
  obtain ⟨hordered, -, hbehind⟩ := List.pairwise_append.mp hsorted
  have hlisted : ∀ line ∈ ranking directives, line ∈ ranked directives :=
    fun line hline => hsplit ▸ List.mem_append_left _ hline
  refine ⟨?_, ?_, fun line hline => mem_ranked_iff.mp (hlisted line hline), hordered, ?_⟩
  · rw [ranking_eq, List.length_take, (ranked_perm directives).length_eq, List.length_map]
    rfl
  · exact (nodup_ranked directives).sublist ((List.take_sublist _ _).map Ranked.name)
  · intro name usage hget hname line hline
    have hother : Ranked.ofEntry (name, usage) ∈ ranked directives :=
      mem_ranked_iff.mpr ⟨usage, hget, rfl, rfl⟩
    rw [← hsplit, List.mem_append] at hother
    rcases hother with hother | hother
    · exact absurd (List.mem_map_of_mem hother) hname
    · exact hbehind line hline _ hother

/-! ### Manifests of counters -/

/-- The manifest of some files with the counters of each. -/
def ofCounters (now : Timestamp) (files : List (String × Stats)) : Manifest :=
  files.foldl (fun manifest file => manifest.addFile file.1 file.2) (new now)

/-- The names of the directives, file by file as the counters list them. -/
def sightings (files : List (String × Stats)) : List String :=
  files.flatMap fun file => file.2.directives.keys

/-- Each directive stands where it was seen first. -/
theorem keys_ofCounters (now : Timestamp) (files : List (String × Stats)) :
    (ofCounters now files).directives.keys = (sightings files).eraseDups := by
  induction files using List.reverseRecOn with
  | nil => rfl
  | append_singleton files file ih =>
      have hstep : ofCounters now (files ++ [file]) =
          (ofCounters now files).addFile file.1 file.2 := List.foldl_append ..
      rw [hstep, keys_addFile, ih, eraseDups_eraseDups_append, sightings, sightings,
        List.flatMap_append, List.flatMap_singleton]

/-- The statistics of a manifest rank its directives and leave everything else as it is. -/
theorem isRanking_withStatistics (now : Timestamp) (files : List (String × Stats))
    (filesMatched : Nat) (processingTime : Option Nat) :
    let manifest := ofCounters now files
    let finished := manifest.withStatistics filesMatched processingTime
    finished.metadata = manifest.metadata ∧ finished.directives = manifest.directives ∧
      ∃ statistics, finished.statistics = some statistics ∧
        IsRanking (sightings files) manifest.directives statistics.topDirectives :=
  ⟨rfl, rfl, _, rfl, isRanking_ranking (keys_ofCounters now files)⟩

end Manifest

end FlexFold
