import FlexFold.Store.Basic

/-!
The pieces of a text, and the names of paths. The name of a file is a single step downwards, and
so is a name at the end of a longer path.
-/

namespace FlexFold

namespace Text

variable {sep : Char} {text piece : List Char}

/-- No piece holds the separator. -/
theorem not_mem_of_mem_split (h : piece ∈ split sep text) : sep ∉ piece := by
  induction text generalizing piece with
  | nil =>
      rw [split, List.mem_singleton] at h
      simp [h]
  | cons c text ih =>
      rw [split] at h
      split at h
      · rcases List.mem_cons.mp h with rfl | h
        · simp
        · exact ih h
      · rename_i hc
        cases hsplit : split sep text with
        | nil => exact absurd hsplit (split_ne_nil sep text)
        | cons first pieces =>
            rw [hsplit] at h
            rcases List.mem_cons.mp h with rfl | h
            · have hfirst : sep ∉ first := ih (by simp [hsplit])
              simp [hfirst, Ne.symm hc]
            · exact ih (by simp [hsplit, h])

theorem split_of_not_mem (h : sep ∉ text) : split sep text = [text] := by
  induction text with
  | nil => rfl
  | cons c text ih =>
      simp only [List.mem_cons, not_or] at h
      rw [split, if_neg (Ne.symm h.1), ih h.2]

theorem split_append (sep : Char) (front back : List Char) :
    split sep (front ++ sep :: back) = split sep front ++ split sep back := by
  induction front with
  | nil => simp [split]
  | cons c front ih =>
      by_cases hc : c = sep
      · simp [split, hc, ih]
      · rw [List.cons_append, split, split, if_neg hc, if_neg hc, ih]
        cases hsplit : split sep front with
        | nil => exact absurd hsplit (split_ne_nil sep front)
        | cons piece pieces => rfl

@[simp] theorem join_singleton (sep : Char) (piece : List Char) : join sep [piece] = piece := by
  simp [join]

theorem join_cons_cons (sep : Char) (first second : List Char) (pieces : List (List Char)) :
    join sep (first :: second :: pieces) = first ++ sep :: join sep (second :: pieces) := by
  simp [join, List.intercalate, List.intersperse]

theorem join_concat (sep : Char) {pieces : List (List Char)} (hne : pieces ≠ [])
    (last : List Char) : join sep (pieces ++ [last]) = join sep pieces ++ sep :: last := by
  induction pieces with
  | nil => exact absurd rfl hne
  | cons first pieces ih =>
      cases pieces with
      | nil => simp [join_cons_cons]
      | cons second pieces =>
          rw [List.cons_append, List.cons_append, join_cons_cons, join_cons_cons,
            ← List.cons_append, ih (by simp), List.append_assoc, List.cons_append]

/-- The pieces of a text make up the text. -/
theorem join_split (sep : Char) (text : List Char) : join sep (split sep text) = text := by
  induction text with
  | nil => rfl
  | cons c text ih =>
      rw [split]
      cases hsplit : split sep text with
      | nil => exact absurd hsplit (split_ne_nil sep text)
      | cons piece pieces =>
          rw [hsplit] at ih
          split
          · rename_i hc
            rw [join_cons_cons, ih, hc, List.nil_append]
          · cases pieces with
            | nil => rw [join_singleton, ← ih, join_singleton]
            | cons second pieces =>
                rw [join_cons_cons] at ih
                rw [join_cons_cons, List.cons_append, ih]

/-- Pieces without a separator are the pieces of the text that they make up. -/
theorem split_join {pieces : List (List Char)} (hne : pieces ≠ [])
    (hsep : ∀ piece ∈ pieces, sep ∉ piece) : split sep (join sep pieces) = pieces := by
  induction pieces with
  | nil => exact absurd rfl hne
  | cons first pieces ih =>
      obtain ⟨hfirst, hpieces⟩ := List.forall_mem_cons.mp hsep
      cases pieces with
      | nil => rw [join_singleton, split_of_not_mem hfirst]
      | cons second pieces =>
          rw [join_cons_cons, split_append, split_of_not_mem hfirst, ih (by simp) hpieces]
          rfl

end Text

namespace Path

variable {path directory : Path} {name : String} {piece : List Char}

/-- A text that is the name of an entry wherever it stands in a path. -/
structure IsName (name : String) : Prop where
  ne_nil : name.toList ≠ []
  ne_dot : name.toList ≠ ['.']
  ne_dots : name.toList ≠ ['.', '.']
  no_slash : '/' ∉ name.toList

theorem isName_iff : IsName name ↔ name.toList ≠ [] ∧ name.toList ≠ ['.'] ∧
    name.toList ≠ ['.', '.'] ∧ '/' ∉ name.toList :=
  ⟨fun h => ⟨h.ne_nil, h.ne_dot, h.ne_dots, h.no_slash⟩,
    fun ⟨ne_nil, ne_dot, ne_dots, no_slash⟩ => ⟨ne_nil, ne_dot, ne_dots, no_slash⟩⟩

instance (name : String) : Decidable (IsName name) := decidable_of_iff _ isName_iff.symm

/-- Every piece that leads somewhere is a component. -/
theorem mem_components (h : piece ∈ path.pieces) (hproper : isIdle piece = false) :
    piece ∈ path.components := by
  unfold components
  cases hpieces : path.pieces with
  | nil => simp [hpieces] at h
  | cons first rest =>
      rw [hpieces] at h
      dsimp only
      rcases List.mem_cons.mp h with rfl | h
      · have hne : piece ≠ [] := by
          rintro rfl
          simp [isIdle] at hproper
        simp [hne]
      · exact List.mem_append_right _ (List.mem_filter.mpr ⟨h, by simp [hproper]⟩)

theorem mem_of_mem_dropIdle {pieces : List (List Char)} (h : piece ∈ dropIdle pieces) :
    piece ∈ pieces := by
  fun_induction dropIdle pieces with
  | case1 | case2 => exact h
  | case3 first pieces _ _ ih => exact List.mem_cons_of_mem first (ih h)
  | case4 => exact h

theorem isName_of_fileName? (h : path.fileName? = some name) : IsName name := by
  unfold fileName? at h
  split at h
  · rename_i piece rest hbackward
    split at h
    · simp at h
    · rename_i hproper
      obtain rfl := Option.some.inj h
      have hpiece : piece ∈ path.pieces :=
        List.mem_reverse.mp (mem_of_mem_dropIdle (by
          change piece ∈ path.backward
          simp [hbackward]))
      simp only [isIdle, Bool.or_eq_true, beq_iff_eq, not_or] at hproper
      obtain ⟨⟨hnil, hdot⟩, hdots⟩ := hproper
      constructor <;> rw [String.toList_ofList]
      · exact hnil
      · exact hdot
      · exact hdots
      · exact Text.not_mem_of_mem_split hpiece
  · simp at h

/-- The text of a longer path ends in a slash and the new name, or in the new name alone. -/
theorem join_text (directory : Path) (h : IsName name) :
    (directory.join name).text.toList = name.toList ∨
      ∃ front, (directory.join name).text.toList = front ++ '/' :: name.toList := by
  have hhead : ¬ name.toList.head? = some '/' := by
    intro e
    exact h.no_slash (List.mem_of_mem_head? e)
  unfold join
  rw [if_neg hhead]
  split
  · exact .inl rfl
  · rename_i c hc
    refine .inr ?_
    split
    · rename_i hslash
      obtain ⟨front, hfront⟩ := List.getLast?_eq_some_iff.mp hc
      exact ⟨front, by simp [String.toList_append, hfront, hslash]⟩
    · exact ⟨directory.text.toList, by simp [String.toList_append]⟩

theorem pieces_join (directory : Path) (h : IsName name) :
    ∃ front, (directory.join name).pieces = front ++ [name.toList] := by
  unfold pieces
  rcases join_text directory h with htext | ⟨front, htext⟩
  · exact ⟨[], by rw [htext, Text.split_of_not_mem h.no_slash, List.nil_append]⟩
  · exact ⟨_, by rw [htext, Text.split_append, Text.split_of_not_mem h.no_slash]⟩

end Path

namespace Store

variable {name : String}

theorem Stride.ofPiece_of_isName (h : Path.IsName name) :
    Stride.ofPiece name.toList = .down name := by
  rw [Stride.ofPiece, if_neg h.ne_dot, if_neg h.ne_dots, String.ofList_toList]

/-- A longer path ends in a step down to its new name. -/
theorem strides_join (directory : Path) (h : Path.IsName name) :
    ∃ front, strides (directory.join name) = front ++ [.down name] := by
  obtain ⟨front, hpieces⟩ := Path.pieces_join directory h
  have hlast : (directory.join name).text.toList.getLast? = name.toList.getLast? := by
    rcases Path.join_text directory h with htext | ⟨front, htext⟩
    · rw [htext]
    · rw [htext, List.getLast?_append, List.getLast?_cons, List.getLast?_eq_some_getLast h.ne_nil]
      rfl
  have hslash : ¬ (directory.join name).text.toList.getLast? = some '/' := by
    rw [hlast]
    intro e
    exact h.no_slash (List.mem_of_mem_getLast? e)
  refine ⟨(front.filter (· ≠ [])).map Stride.ofPiece, ?_⟩
  rw [strides, if_neg hslash, hpieces, List.append_nil, List.filter_append, List.map_append]
  simp [h.ne_nil, Stride.ofPiece_of_isName h]

end Store

end FlexFold
