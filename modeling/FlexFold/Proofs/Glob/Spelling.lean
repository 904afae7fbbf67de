import FlexFold.Glob.Paths
import FlexFold.Proofs.Store.Names

/-!
How the paths of a search are spelled. The text of a path ends in its last name, and what stands
before it is settled by the directory alone. Only the directory where a relative search begins is
left out of the texts, so a search must not lead back to it.
-/

namespace FlexFold.Glob

variable {path directory : Path} {name : String} {front : List Char}

/-! ### Names below a directory -/

/-- What stands before a name in the text of a path below a directory. -/
def lead (directory : Path) : List Char :=
  if isStart directory then []
  else if directory.text.toList = [] ∨ directory.text.toList.getLast? = some '/' then
    directory.text.toList
  else directory.text.toList ++ ['/']

theorem toList_join (hstart : isStart directory = false) (hslash : '/' ∉ name.toList) :
    (directory.join name).text.toList = lead directory ++ name.toList := by
  have hhead : ¬ name.toList.head? = some '/' := fun e => hslash (List.mem_of_mem_head? e)
  rw [Path.join, if_neg hhead, lead, hstart, if_neg Bool.false_ne_true]
  split
  · rename_i hnone
    have hnil := List.getLast?_eq_none_iff.mp hnone
    simp [hnil]
  · rename_i c hlast
    have hne : directory.text.toList ≠ [] := by
      rintro hnil
      simp [hnil] at hlast
    split
    · rename_i hc
      rw [if_pos (.inr (hc ▸ hlast)), String.toList_append]
    · rename_i hc
      have hother : ¬ (directory.text.toList = [] ∨ directory.text.toList.getLast? = some '/') := by
        simp [hne, hlast, hc]
      rw [if_neg hother, String.toList_append, String.toList_append]
      rfl

theorem toList_child (hslash : '/' ∉ name.toList) :
    (child directory name).text.toList = lead directory ++ name.toList := by
  unfold child
  split
  · rename_i hstart
    rw [lead, if_pos hstart, List.nil_append]
  · rename_i hstart
    exact toList_join (by simpa using hstart) hslash

theorem lead_eq_nil_or (directory : Path) :
    lead directory = [] ∨ ∃ before, lead directory = before ++ ['/'] := by
  unfold lead
  split
  · exact .inl rfl
  · split
    · rename_i hor
      rcases hor with hnil | hlast
      · exact .inl hnil
      · exact .inr (List.getLast?_eq_some_iff.mp hlast)
    · exact .inr ⟨_, rfl⟩

theorem fileName?_of_toList (hname : Path.IsName name)
    (htext : path.text.toList = lead directory ++ name.toList) : path.fileName? = some name := by
  have hpieces : ∃ before, path.pieces = before ++ [name.toList] := by
    rw [Path.pieces, htext]
    rcases lead_eq_nil_or directory with hlead | ⟨before, hlead⟩
    · exact ⟨[], by rw [hlead, List.nil_append, Text.split_of_not_mem hname.no_slash]; rfl⟩
    · rw [hlead, List.append_assoc, List.singleton_append, Text.split_append,
        Text.split_of_not_mem hname.no_slash]
      exact ⟨_, rfl⟩
  obtain ⟨before, hpieces⟩ := hpieces
  have hidle : Path.isIdle name.toList = false := by
    simp [Path.isIdle, hname.ne_nil, hname.ne_dot]
  have hbackward : path.backward = name.toList :: before.reverse := by
    rw [Path.backward, hpieces, List.reverse_append, List.reverse_singleton, List.singleton_append]
    cases before.reverse with
    | nil => rfl
    | cons =>
        rw [Path.dropIdle, hidle, if_neg Bool.false_ne_true]
        simp
  rw [Path.fileName?, hbackward]
  simp [hidle, hname.ne_dots]

/-- The name that a path below a directory ends in is followed by a slash in longer paths. -/
theorem lead_of_toList (hstart : isStart path = false) (hne : name.toList ≠ [])
    (hslash : '/' ∉ name.toList) (htext : path.text.toList = front ++ name.toList) :
    lead path = front ++ name.toList ++ ['/'] := by
  have hlast : path.text.toList.getLast? ≠ some '/' := by
    intro e
    rw [htext, List.getLast?_append, List.getLast?_eq_some_getLast hne] at e
    exact hslash (Option.some.inj e ▸ List.getLast_mem hne)
  rw [lead, hstart, if_neg Bool.false_ne_true, if_neg, htext]
  rintro (hnil | hslash)
  · simp [htext, hne] at hnil
  · exact hlast hslash

/-- A path that leads somewhere, and not just to where searches begin. -/
def Settled (path : Path) : Prop :=
  path.isAbsolute ∨ ∃ piece ∈ path.pieces, Path.isIdle piece = false

theorem Settled.isStart_eq_false (h : Settled path) : isStart path = false := by
  refine Bool.eq_false_iff.mpr fun hstart => ?_
  rw [isStart, Path.same, Bool.and_eq_true, beq_iff_eq, beq_iff_eq] at hstart
  obtain ⟨habsolute, hcomponents⟩ := hstart
  rcases h with h | ⟨piece, hpiece, hproper⟩
  · rw [h] at habsolute
    exact absurd habsolute (by decide)
  · have hmem := Path.mem_components hpiece hproper
    rw [hcomponents] at hmem
    obtain rfl : piece = ['.'] := by simpa [Path.components, Path.pieces, Text.split] using hmem
    simp [Path.isIdle] at hproper

/-- What is below a settled directory is settled. -/
theorem Settled.of_toList (h : Settled directory)
    (htext : path.text.toList = lead directory ++ name.toList) : Settled path := by
  rw [lead, h.isStart_eq_false, if_neg Bool.false_ne_true] at htext
  rcases h with habsolute | ⟨piece, hpiece, hproper⟩
  · left
    rw [Path.isAbsolute, beq_iff_eq] at habsolute ⊢
    rw [htext]
    split <;> simp [List.head?_append, habsolute]
  · refine .inr ⟨piece, ?_, hproper⟩
    rw [Path.pieces] at hpiece ⊢
    rw [htext]
    split
    · rename_i hor
      rcases hor with hnil | hlast
      · rw [hnil] at hpiece
        obtain rfl := List.mem_singleton.mp hpiece
        simp [Path.isIdle] at hproper
      · obtain ⟨before, hbefore⟩ := List.getLast?_eq_some_iff.mp hlast
        rw [hbefore, Text.split_append] at hpiece
        rw [hbefore, List.append_assoc, List.singleton_append, Text.split_append]
        rcases List.mem_append.mp hpiece with hpiece | hnil
        · exact List.mem_append_left _ hpiece
        · obtain rfl := List.mem_singleton.mp hnil
          simp [Path.isIdle] at hproper
    · rw [List.append_assoc, List.singleton_append, Text.split_append]
      exact List.mem_append_left _ hpiece

/-- What has a name below a directory is settled, unless that name is `.`. -/
theorem settled_of_ne_dot (hne : name.toList ≠ []) (hslash : '/' ∉ name.toList)
    (hdot : name ≠ ".") (htext : path.text.toList = lead directory ++ name.toList) :
    Settled path := by
  refine .inr ⟨name.toList, ?_, ?_⟩
  · rw [Path.pieces, htext]
    rcases lead_eq_nil_or directory with hlead | ⟨before, hlead⟩
    · rw [hlead, List.nil_append, Text.split_of_not_mem hslash]
      exact List.mem_singleton_self _
    · rw [hlead, List.append_assoc, List.singleton_append, Text.split_append,
        Text.split_of_not_mem hslash]
      simp
  · simp only [Path.isIdle, Bool.or_eq_false_iff, beq_eq_false_iff_ne]
    exact ⟨hne, fun e => hdot (String.toList_inj.mp e)⟩

end FlexFold.Glob
