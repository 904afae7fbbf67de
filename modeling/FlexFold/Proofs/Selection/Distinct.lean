import FlexFold.Selection

/-!
The first of each path among some files. Files that come up one after the other, each of which is
kept unless its path is among those that were kept, leave exactly these, in the order in which
they come up.
-/

namespace FlexFold

namespace Path

variable {path other third : Path}

theorem same_iff :
    path.same other ↔ path.isAbsolute = other.isAbsolute ∧ path.components = other.components := by
  simp [same]

theorem same_self (path : Path) : path.same path := by
  simp [same]

/-- Paths that are the same are the same as the same paths. -/
theorem same_congr (h : path.same other) (third : Path) : third.same path = third.same other := by
  obtain ⟨habsolute, hcomponents⟩ := same_iff.mp h
  rw [Bool.eq_iff_iff, same_iff, same_iff, habsolute, hcomponents]

end Path

namespace Selection

variable {offered selected : List Selected} {file : Selected} {path : Path}

/-! ### The first of each path -/

/-- Select a file unless its path is selected. -/
def keepFirst (selected : List Selected) (file : Selected) : List Selected :=
  if selected.any fun other => other.path.same file.path then selected else selected ++ [file]

/-- Whether a path is among some files, in whatever spelling. -/
def Selects (selected : List Selected) (path : Path) : Prop :=
  ∃ file ∈ selected, file.path.same path

/-- Where a path comes up first. -/
def position (offered : List Selected) (path : Path) : Nat :=
  offered.findIdx fun file => file.path.same path

/-- The first of each path among some files, in the order in which they come up. -/
structure AreFirst (offered selected : List Selected) : Prop where
  first : ∀ file ∈ selected, (offered.find? fun other => other.path.same file.path) = some file
  covered : ∀ file ∈ offered, Selects selected file.path
  ordered : selected.Pairwise fun a b => position offered a.path < position offered b.path

theorem any_same_iff :
    (selected.any fun other => other.path.same file.path) ↔ Selects selected file.path := by
  simp [Selects]

theorem position_append_of_lt (h : position offered path < offered.length)
    (more : List Selected) : position (offered ++ more) path = position offered path := by
  unfold position at h ⊢
  rw [List.findIdx_append, if_pos h]

theorem AreFirst.mem_offered (h : AreFirst offered selected) (hfile : file ∈ selected) :
    file ∈ offered := List.mem_of_find?_eq_some (h.first file hfile)

theorem AreFirst.position_lt (h : AreFirst offered selected) (hfile : file ∈ selected) :
    position offered file.path < offered.length := by
  rw [position, List.findIdx_lt_length]
  exact ⟨file, h.mem_offered hfile, Path.same_self _⟩

theorem areFirst_nil : AreFirst [] [] := ⟨by simp, by simp, .nil⟩

/-- One more file that comes up is either known or comes last. -/
theorem AreFirst.keepFirst (h : AreFirst offered selected) (file : Selected) :
    AreFirst (offered ++ [file]) (keepFirst selected file) := by
  have hfirst : ∀ other ∈ selected,
      ((offered ++ [file]).find? fun f => f.path.same other.path) = some other := by
    intro other hother
    rw [List.find?_append, h.first other hother, Option.some_or]
  have hordered : selected.Pairwise fun a b =>
      position (offered ++ [file]) a.path < position (offered ++ [file]) b.path := by
    refine h.ordered.imp_of_mem fun ha hb hlt => ?_
    rwa [position_append_of_lt (h.position_lt ha), position_append_of_lt (h.position_lt hb)]
  unfold Selection.keepFirst
  split
  · next hknown =>
      refine ⟨hfirst, fun other hother => ?_, hordered⟩
      rcases List.mem_append.mp hother with hother | hother
      · exact h.covered other hother
      · rw [List.mem_singleton.mp hother]
        exact any_same_iff.mp hknown
  · next hnew =>
      -- No file came up with this path, so its position is behind all others.
      have hnone : ∀ other ∈ offered, ¬ other.path.same file.path := by
        intro other hother hsame
        obtain ⟨known, hknown, hknownSame⟩ := h.covered other hother
        refine hnew (any_same_iff.mpr ⟨known, hknown, ?_⟩)
        rwa [← Path.same_congr hsame]
      have hposition : position (offered ++ [file]) file.path = offered.length := by
        have hlength : (offered.findIdx fun other => other.path.same file.path) =
            offered.length := List.findIdx_eq_length.mpr (by simpa using hnone)
        simp [position, List.findIdx_append, hlength, Path.same_self]
      refine ⟨fun other hother => ?_, fun other hother => ?_, ?_⟩
      · rcases List.mem_append.mp hother with hother | hother
        · exact hfirst other hother
        · rw [List.mem_singleton.mp hother, List.find?_append,
            List.find?_eq_none.mpr hnone, Option.none_or]
          simp [Path.same_self]
      · rcases List.mem_append.mp hother with hother | hother
        · obtain ⟨known, hknown, hsame⟩ := h.covered other hother
          exact ⟨known, List.mem_append_left _ hknown, hsame⟩
        · rw [List.mem_singleton.mp hother]
          exact ⟨file, by simp, Path.same_self _⟩
      · refine List.pairwise_append.mpr ⟨hordered, List.pairwise_singleton .., ?_⟩
        intro other hother last hlast
        rw [List.mem_singleton.mp hlast, hposition,
          position_append_of_lt (h.position_lt hother)]
        exact h.position_lt hother

theorem AreFirst.foldl_keepFirst (h : AreFirst offered selected) (more : List Selected) :
    AreFirst (offered ++ more) (more.foldl Selection.keepFirst selected) := by
  induction more generalizing offered selected with
  | nil => rwa [List.append_nil]
  | cons file more ih =>
      rw [List.foldl_cons, ← List.singleton_append, ← List.append_assoc]
      exact ih (h.keepFirst file)

theorem AreFirst.selects_iff (h : AreFirst offered selected) (path : Path) :
    Selects selected path ↔ Selects offered path := by
  constructor
  · rintro ⟨file, hfile, hsame⟩
    exact ⟨file, h.mem_offered hfile, hsame⟩
  · rintro ⟨file, hfile, hsame⟩
    obtain ⟨known, hknown, hknownSame⟩ := h.covered file hfile
    exact ⟨known, hknown, by rwa [← Path.same_congr hsame]⟩

/-- No path is there twice, since one path has one position. -/
theorem AreFirst.distinct (h : AreFirst offered selected) :
    selected.Pairwise fun a b => a.path.same b.path = false := by
  refine h.ordered.imp fun {a b} hlt => ?_
  rw [← Bool.not_eq_true]
  intro hsame
  refine Nat.lt_irrefl (position offered b.path) ?_
  have hpredicate : (fun file : Selected => file.path.same a.path) =
      fun file => file.path.same b.path := by
    funext file
    exact Path.same_congr hsame file.path
  rwa [position, hpredicate] at hlt

end Selection

end FlexFold
