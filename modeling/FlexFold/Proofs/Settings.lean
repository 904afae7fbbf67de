import FlexFold.Proofs.FirstSeen
import FlexFold.Settings.Basic
import Mathlib.Data.List.Induction

/-!
Merging settings. What is new in a second list of patterns is compared with a list that grows in
the meantime, so a list may bring repetitions of its own along as the first one, but never as the
second one. All the same, any number of settings can be merged from either end.
-/

namespace FlexFold.Settings

/-! ### Lists of patterns -/

variable {first second : List String} {pattern : String}

theorem mergePatterns_concat (first second : List String) (pattern : String) :
    mergePatterns first (second ++ [pattern]) =
      if pattern ∈ mergePatterns first second then mergePatterns first second
      else mergePatterns first second ++ [pattern] := by
  rw [mergePatterns, List.foldl_append]
  rfl

/-- The patterns that are new, each where it first occurs. -/
theorem mergePatterns_eq (first second : List String) :
    mergePatterns first second = first ++ (second.filter (· ∉ first)).eraseDups := by
  induction second using List.reverseRecOn with
  | nil => exact (List.append_nil first).symm
  | append_singleton second pattern ih =>
      rw [mergePatterns_concat, ih, List.filter_append]
      by_cases hold : pattern ∈ first
      · simp [hold]
      · have hnew : [pattern].filter (· ∉ first) = [pattern] := by simp [hold]
        rw [hnew, eraseDups_concat]
        by_cases hmet : pattern ∈ second
        · simp [hold, hmet]
        · simp [hold, hmet]

theorem mem_mergePatterns_iff :
    pattern ∈ mergePatterns first second ↔ pattern ∈ first ∨ pattern ∈ second := by
  rw [mergePatterns_eq, List.mem_append, List.mem_eraseDups, List.mem_filter, decide_eq_true_iff]
  constructor
  · rintro (h | h)
    · exact .inl h
    · exact .inr h.1
  · intro h
    by_cases hold : pattern ∈ first
    · exact .inl hold
    · exact .inr ⟨h.resolve_left hold, hold⟩

example : mergePatterns ["a", "b", "a"] ["c", "b", "c"] = ["a", "b", "a", "c"] := by decide

/-- A list with nothing new leaves no trace. -/
theorem mergePatterns_of_subset (h : second ⊆ first) : mergePatterns first second = first := by
  have hnothing : second.filter (· ∉ first) = [] := by
    rw [List.filter_eq_nil_iff]
    intro pattern hmem
    simpa using h hmem
  rw [mergePatterns_eq, hnothing, List.eraseDups_nil, List.append_nil]

theorem mergePatterns_assoc (first second third : List String) :
    mergePatterns (mergePatterns first second) third =
      mergePatterns first (mergePatterns second third) := by
  -- Whether the last pattern is kept is decided by the lists before it, so the induction is on
  -- the end of the third list.
  induction third using List.reverseRecOn with
  | nil => rfl
  | append_singleton third pattern ih =>
      rw [mergePatterns_concat, mergePatterns_concat second third, ih]
      by_cases hmet : pattern ∈ mergePatterns second third
      · rw [if_pos hmet, if_pos (mem_mergePatterns_iff.mpr (.inr hmet))]
      · rw [if_neg hmet, mergePatterns_concat]

/-! ### Settings -/

/-- What becomes of two lists of patterns: nothing of the first one is touched, and what follows
is new and comes from the second one. -/
structure IsExtension (first second merged : List String) : Prop where
  exists_added :
    ∃ added, merged = first ++ added ∧ added.Nodup ∧ ∀ pattern ∈ added, pattern ∉ first
  mem_iff : ∀ pattern, pattern ∈ merged ↔ pattern ∈ first ∨ pattern ∈ second

theorem isExtension_mergePatterns (first second : List String) :
    IsExtension first second (mergePatterns first second) := by
  refine ⟨⟨_, mergePatterns_eq first second, nodup_eraseDups _, ?_⟩,
    fun _ => mem_mergePatterns_iff⟩
  intro pattern hmem
  rw [List.mem_eraseDups, List.mem_filter, decide_eq_true_iff] at hmem
  exact hmem.2

/-- What becomes of two sets of settings. -/
structure IsMerge (first second merged : Settings) : Prop where
  content : IsExtension first.content second.content merged.content
  exclude : IsExtension first.exclude second.exclude merged.exclude
  pretty : merged.pretty = second.pretty
  maxFileSize : merged.maxFileSize = second.maxFileSize
  allowSymlinks : merged.allowSymlinks = second.allowSymlinks
  workingDirectory : merged.workingDirectory = first.workingDirectory

theorem merge_assoc (a b c : Settings) : (a.merge b).merge c = a.merge (b.merge c) := by
  simp only [merge, mergePatterns_assoc]

theorem merge_self (a : Settings) : a.merge a = a := by
  simp only [merge, mergePatterns_of_subset (List.Subset.refl _)]

theorem isMerge_merge (first second : Settings) : IsMerge first second (first.merge second) where
  content := isExtension_mergePatterns first.content second.content
  exclude := isExtension_mergePatterns first.exclude second.exclude
  pretty := rfl
  maxFileSize := rfl
  allowSymlinks := rfl
  workingDirectory := rfl

/-- Settings can be merged from either end, merging them with themselves changes nothing, and both
lists grow by what is new, while the second settings decide everything else but the working
directory. -/
theorem merge_laws (a b c : Settings) :
    (a.merge b).merge c = a.merge (b.merge c) ∧ a.merge a = a ∧ IsMerge a b (a.merge b) :=
  ⟨merge_assoc a b c, merge_self a, isMerge_merge a b⟩

end FlexFold.Settings
