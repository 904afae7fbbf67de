import FlexFold.Proofs.ClassList
import Mathlib.Data.List.Basic
import Mathlib.Data.List.InsertIdx

/-!
Class lists in which one token was put in the place of another one. If the new token is there
already, the two places become one, and the earlier one survives.
-/

namespace FlexFold.ClassList

variable {list : ClassList} {old new first token : String}
  {tokens front rest result : List String}

/-! ### Tokens that are left alone -/

/-- The tokens that a replacement leaves alone, in order. -/
def others (old new : String) (tokens : List String) : List String :=
  tokens.filter fun t => t ≠ old ∧ t ≠ new

theorem mem_others_iff :
    token ∈ others old new tokens ↔ token ∈ tokens ∧ token ≠ old ∧ token ≠ new := by
  rw [others, List.mem_filter, decide_eq_true_iff]

theorem others_eq_self (h : ∀ t ∈ tokens, t ≠ old ∧ t ≠ new) : others old new tokens = tokens :=
  List.filter_eq_self.mpr fun t ht => decide_eq_true (h t ht)

theorem substitute_of_met (h : token = old ∨ token = new) : substitute old new token = new := by
  by_cases hold : token = old
  · exact if_pos hold
  · rw [substitute_of_ne hold]
    exact h.resolve_left hold

/-- Where the new token stands already, a token that becomes the new one is a repetition. -/
theorem removeAll_map_substitute {kept : List String} (hnew : new ∈ kept)
    (hapart : ∀ t ∈ rest, t ≠ new → t ∉ kept) :
    (rest.map (substitute old new)).removeAll kept = others old new rest := by
  have hkeep : ∀ t ∈ rest, (!kept.elem (substitute old new t)) =
      decide (t ≠ old ∧ t ≠ new) := by
    intro t ht
    by_cases hmet : t = old ∨ t = new
    · simp [substitute_of_met hmet, hnew, ← not_or, hmet]
    · rw [not_or] at hmet
      simp [substitute_of_ne hmet.1, hmet, hapart t ht hmet.2]
  calc (rest.map (substitute old new)).removeAll kept
      = (rest.filter fun t => !kept.elem (substitute old new t)).map (substitute old new) :=
        List.filter_map
    _ = (others old new rest).map (substitute old new) := by rw [List.filter_congr hkeep, others]
    _ = others old new rest := map_substitute (fun hmem => (mem_others_iff.mp hmem).2.1 rfl) new

/-! ### The earlier place -/

/-- Where a list first meets one of two tokens. -/
structure Meets (old new : String) (tokens front : List String) (first : String)
    (rest : List String) : Prop where
  eq_append : tokens = front ++ first :: rest
  first : first = old ∨ first = new
  front : ∀ t ∈ front, t ≠ old ∧ t ≠ new

theorem exists_meets (h : old ∈ tokens) (new : String) :
    ∃ front first rest, Meets old new tokens front first rest := by
  have hfind : (tokens.find? fun t => t = old ∨ t = new).isSome :=
    List.find?_isSome.mpr ⟨old, h, by simp⟩
  obtain ⟨first, hfirst⟩ := Option.isSome_iff_exists.mp hfind
  obtain ⟨hmet, front, rest, heq, hfront⟩ := List.find?_eq_some_iff_append.mp hfirst
  exact ⟨front, first, rest, heq, by simpa using hmet, by simpa using hfront⟩

namespace Meets

theorem old_notMem (h : Meets old new tokens front first rest) : old ∉ front :=
  fun hmem => (h.front old hmem).1 rfl

theorem new_notMem (h : Meets old new tokens front first rest) : new ∉ front :=
  fun hmem => (h.front new hmem).2 rfl

theorem first_notMem (h : Meets old new tokens front first rest) : first ∉ front := by
  rcases h.first with rfl | rfl
  · exact h.old_notMem
  · exact h.new_notMem

theorem others_eq (h : Meets old new tokens front first rest) :
    others old new tokens = front ++ others old new rest := by
  have hfirst : ¬(first ≠ old ∧ first ≠ new) := fun hne => h.first.elim hne.1 hne.2
  calc others old new tokens
      = others old new front ++ others old new (first :: rest) := by
        rw [h.eq_append]
        exact List.filter_append ..
    _ = front ++ others old new rest := by
        rw [others_eq_self h.front, others, List.filter_cons_of_neg (by simpa using hfirst), others]

theorem idxOf_first (h : Meets old new tokens front first rest) :
    tokens.idxOf first = front.length := by
  rw [h.eq_append, List.idxOf_append_of_notMem h.first_notMem, List.idxOf_cons_self, Nat.add_zero]

/-- It is the earlier place of the two. -/
theorem min_idxOf (h : Meets old new tokens front first rest) :
    min (tokens.idxOf old) (tokens.idxOf new) = front.length := by
  have hle : ∀ t ∉ front, front.length ≤ tokens.idxOf t := by
    intro t ht
    rw [h.eq_append, List.idxOf_append_of_notMem ht]
    exact Nat.le_add_right ..
  have hold : front.length ≤ tokens.idxOf old := hle old h.old_notMem
  have hnew : front.length ≤ tokens.idxOf new := hle new h.new_notMem
  have hfirst := h.idxOf_first
  rcases h.first with rfl | rfl
  · rw [hfirst, Nat.min_eq_left hnew]
  · rw [hfirst, Nat.min_eq_right hold]

/-- Another token stands behind that place unless it stands in front of it. -/
theorem length_lt_idxOf_iff (h : Meets old new tokens front first rest)
    (hother : token ≠ old ∧ token ≠ new) : front.length < tokens.idxOf token ↔ token ∉ front := by
  have hne : first ≠ token := fun heq => h.first.elim (heq ▸ hother.1) (heq ▸ hother.2)
  rw [h.eq_append]
  by_cases hfront : token ∈ front
  · have hlt : front.idxOf token < front.length := List.idxOf_lt_length_iff.mpr hfront
    rw [List.idxOf_append_of_mem hfront]
    exact iff_of_false (Nat.lt_asymm hlt) (not_not_intro hfront)
  · rw [List.idxOf_append_of_notMem hfront, List.idxOf_cons_ne rest hne]
    exact iff_of_true (Nat.lt_add_of_pos_right (Nat.succ_pos _)) hfront

/-- The new token stands where the first of the two stood, and behind it both are gone. -/
theorem tokens_replace_eq (h : Meets old new list.tokens front first rest) :
    (list.replace old new).tokens = front ++ new :: others old new rest := by
  have hnodup : (front ++ first :: rest).Nodup := h.eq_append ▸ list.nodup
  obtain ⟨hfront, hback, hapart⟩ := List.nodup_append.mp hnodup
  have hplaced : (front ++ [new]).Nodup := by
    rw [List.nodup_append]
    refine ⟨hfront, by simp, fun a ha b hb => ?_⟩
    rw [List.mem_singleton.mp hb]
    exact (h.front a ha).2
  have hrest :
      (rest.map (substitute old new)).removeAll (front ++ [new]) = others old new rest := by
    refine removeAll_map_substitute (by simp) fun t ht hnew => ?_
    rw [List.mem_append, List.mem_singleton]
    rintro (hmem | hmem)
    · exact hapart t hmem t (List.mem_cons_of_mem _ ht) rfl
    · exact hnew hmem
  have hothers : (others old new rest).Nodup := hback.of_cons.sublist List.filter_sublist
  calc (list.replace old new).tokens
      = (list.tokens.map (substitute old new)).eraseDups := tokens_replace list old new
    _ = (front ++ [new] ++ rest.map (substitute old new)).eraseDups := by
        rw [h.eq_append, List.map_append, List.map_cons, map_substitute h.old_notMem,
          substitute_of_met h.first, List.append_assoc, List.singleton_append]
    _ = front ++ [new] ++ others old new rest := by
        rw [List.eraseDups_append, hrest, eraseDups_of_nodup hplaced, eraseDups_of_nodup hothers]
    _ = front ++ new :: others old new rest := by
        rw [List.append_assoc, List.singleton_append]

/-- A replacement leaves the place as it is, and what stood in front of it. -/
theorem replace (h : Meets old new list.tokens front first rest) :
    Meets old new (list.replace old new).tokens front new (others old new rest) :=
  ⟨h.tokens_replace_eq, .inr rfl, h.front⟩

end Meets

/-! ### Replacements -/

/-- What a list of distinct tokens becomes if one token takes the place of another one. -/
structure IsReplacement (old new : String) (tokens result : List String) : Prop where
  nodup : result.Nodup
  mem_iff : ∀ t, t ∈ result ↔ t ∈ tokens ∧ t ≠ old ∨ t = new
  others_eq : others old new result = others old new tokens
  /-- A token that is absent counts as standing behind all others. -/
  place : result.idxOf new = min (tokens.idxOf old) (tokens.idxOf new)
  /-- The new token comes before the tokens that the old one or it itself came before, and before
  no more. -/
  precedes_iff : ∀ t ∈ tokens, t ≠ old → t ≠ new → (result.idxOf new < result.idxOf t ↔
    tokens.idxOf old < tokens.idxOf t ∨ tokens.idxOf new < tokens.idxOf t)

theorem mem_replace_iff (h : old ∈ list.tokens) :
    token ∈ (list.replace old new).tokens ↔ token ∈ list.tokens ∧ token ≠ old ∨ token = new := by
  rw [tokens_replace, List.mem_eraseDups, List.mem_map]
  constructor
  · rintro ⟨t, ht, rfl⟩
    by_cases hold : t = old
    · exact .inr (substitute_of_met (.inl hold))
    · rw [substitute_of_ne hold]
      exact .inl ⟨ht, hold⟩
  · rintro (⟨ht, hold⟩ | rfl)
    · exact ⟨token, ht, substitute_of_ne hold new⟩
    · exact ⟨old, h, substitute_of_met (.inl rfl)⟩

theorem isReplacement_of_mem (h : old ∈ list.tokens) (new : String) :
    IsReplacement old new list.tokens (list.replace old new).tokens := by
  obtain ⟨front, first, rest, hbefore⟩ := exists_meets h new
  have hafter := hbefore.replace
  have hsame : others old new (others old new rest) = others old new rest :=
    others_eq_self fun t ht => (mem_others_iff.mp ht).2
  exact
    { nodup := (list.replace old new).nodup
      mem_iff := fun t => mem_replace_iff h
      others_eq := by rw [hafter.others_eq, hbefore.others_eq, hsame]
      place := by rw [hafter.idxOf_first, hbefore.min_idxOf]
      precedes_iff := by
        intro t _ hold hnew
        rw [hafter.idxOf_first, hafter.length_lt_idxOf_iff ⟨hold, hnew⟩,
          ← hbefore.length_lt_idxOf_iff ⟨hold, hnew⟩, ← hbefore.min_idxOf]
        omega }

/-- A replacement is the other tokens with the new one inserted at the earlier place. -/
theorem IsReplacement.eq_insertIdx (h : IsReplacement old new tokens result) :
    result = (others old new tokens).insertIdx (min (tokens.idxOf old) (tokens.idxOf new)) new := by
  have hmem : new ∈ result := (h.mem_iff new).mpr (.inr rfl)
  have hlt : result.idxOf new < result.length := List.idxOf_lt_length_iff.mpr hmem
  have herase : result.eraseIdx (result.idxOf new) = others old new tokens := by
    -- The old token is not there either, unless it is the new one.
    rw [List.eraseIdx_idxOf_eq_erase, h.nodup.erase_eq_filter, ← h.others_eq]
    refine List.filter_congr fun t ht => ?_
    have hold : t ≠ new → t ≠ old := fun hnew => (((h.mem_iff t).mp ht).resolve_right hnew).2
    by_cases hnew : t = new
    · simp [hnew]
    · simp [hnew, hold hnew]
  calc result
      = (result.eraseIdx (result.idxOf new)).insertIdx (result.idxOf new)
          result[result.idxOf new] := (List.insertIdx_eraseIdx_getElem hlt).symm
    _ = (others old new tokens).insertIdx (min (tokens.idxOf old) (tokens.idxOf new)) new := by
        rw [herase, List.getElem_idxOf, h.place]

/-- Nothing is replaced if the old token is absent. If it is present, the outcome is a replacement,
and there is no other one. -/
theorem isReplacement_replace (list : ClassList) (old new : String) :
    (old ∉ list.tokens → list.replace old new = list) ∧
      (old ∈ list.tokens →
        IsReplacement old new list.tokens (list.replace old new).tokens ∧
          ∀ result, IsReplacement old new list.tokens result →
            result = (list.replace old new).tokens) := by
  refine ⟨fun h => replace_of_notMem h new, fun h => ?_⟩
  have hreplace := isReplacement_of_mem h new
  exact ⟨hreplace, fun result hresult => hresult.eq_insertIdx.trans hreplace.eq_insertIdx.symm⟩

example : ((parse "inline-flex card flex").replace "flex" "inline-flex").tokens =
    ["inline-flex", "card"] := by
  decide +kernel

/-- A list in which the new token stands behind the old one. -/
def collapsing : ClassList := parse "card flex p-4 inline-flex m-2"

theorem isReplacement_replace_collapsing :
    "flex" ∈ collapsing.tokens ∧
      (collapsing.replace "flex" "inline-flex").tokens = ["card", "inline-flex", "p-4", "m-2"] ∧
      IsReplacement "flex" "inline-flex" collapsing.tokens
        ["card", "inline-flex", "p-4", "m-2"] ∧
      "gap-2" ∉ collapsing.tokens ∧ collapsing.replace "gap-2" "gap-4" = collapsing := by
  have hflex : "flex" ∈ collapsing.tokens := by decide +kernel
  have hgap : "gap-2" ∉ collapsing.tokens := by decide +kernel
  have htokens : (collapsing.replace "flex" "inline-flex").tokens =
      ["card", "inline-flex", "p-4", "m-2"] := by decide +kernel
  have hreplace := ((isReplacement_replace collapsing "flex" "inline-flex").2 hflex).1
  rw [htokens] at hreplace
  exact ⟨hflex, htokens, hreplace, hgap,
    (isReplacement_replace collapsing "gap-2" "gap-4").1 hgap⟩

end FlexFold.ClassList
