import FlexFold.Proofs.Glob.Tokens

/-!
What a pattern covers. `Covers` says which names the components of a pattern lead through, `**`
through any number of them; the text of these names is one that the pattern as a whole matches.
-/

namespace FlexFold.Glob

variable {p : Pattern} {tokens first second : List Token} {text front back : List Char}

/-! ### Matching what was put together -/

theorem mem_suffixes_self (text : List Char) : text ∈ suffixes text := by
  cases text <;> simp [suffixes]

theorem mem_suffixes_append (h : front ∈ suffixes text) (back : List Char) :
    front ++ back ∈ suffixes (text ++ back) := by
  induction text with
  | nil =>
      obtain rfl := List.mem_singleton.mp h
      exact mem_suffixes_self back
  | cons c text ih =>
      rcases List.mem_cons.mp h with rfl | h
      · exact mem_suffixes_self _
      · exact List.mem_cons_of_mem _ (ih h)

theorem mem_suffixesAfterSlash_append (front back : List Char) :
    back ∈ suffixesAfterSlash (front ++ '/' :: back) := by
  induction front with
  | nil => simp [suffixesAfterSlash]
  | cons c front ih =>
      rw [List.cons_append, suffixesAfterSlash]
      split
      · exact List.mem_cons_of_mem _ ih
      · exact ih

theorem mem_suffixesAfterSlash_of_mem (h : text ∈ suffixesAfterSlash back) (front : List Char) :
    text ∈ suffixesAfterSlash (front ++ back) := by
  induction front with
  | nil => exact h
  | cons c front ih =>
      rw [List.cons_append, suffixesAfterSlash]
      split
      · exact List.mem_cons_of_mem _ ih
      · exact ih

/-- `**` alone matches everything. -/
theorem matchTokens_anyComponents (text : List Char) : matchTokens [.anyComponents] text := by
  have hnil : [] ∈ suffixesAfterSlash (text ++ []) :=
    mem_suffixesAfterSlash_of_mem (by simp [suffixesAfterSlash]) text
  rw [List.append_nil] at hnil
  rw [matchTokens, Bool.or_eq_true, List.any_eq_true]
  exact .inr ⟨[], hnil, rfl⟩

/-- `**` matches whatever else comes first, up to a slash. -/
theorem matchTokens_anyComponents_append (h : matchTokens (.anyComponents :: tokens) back)
    (front : List Char) : matchTokens (.anyComponents :: tokens) (front ++ '/' :: back) := by
  rw [matchTokens, Bool.or_eq_true, List.any_eq_true] at h ⊢
  right
  rcases h with h | ⟨text, htext, h⟩
  · exact ⟨back, mem_suffixesAfterSlash_append front back, h⟩
  · exact ⟨text, mem_suffixesAfterSlash_of_mem (List.mem_cons_of_mem _ htext) front, h⟩

/-- Tokens that match two texts match both of them put together, unless there is `**`, which ends
after a slash. -/
theorem matchTokens_append (hplain : .anyComponents ∉ first) (hfront : matchTokens first front)
    (hback : matchTokens second back) : matchTokens (first ++ second) (front ++ back) := by
  induction first generalizing front with
  | nil =>
      obtain rfl : front = [] := by simpa [matchTokens] using hfront
      exact hback
  | cons token first ih =>
      simp only [List.mem_cons, not_or] at hplain
      cases token with
      | anyComponents => exact absurd rfl hplain.1
      | anySequence =>
          rw [matchTokens, List.any_eq_true] at hfront
          obtain ⟨rest, hrest, hfront⟩ := hfront
          rw [List.cons_append, matchTokens, List.any_eq_true]
          exact ⟨rest ++ back, mem_suffixes_append hrest back, ih hplain.2 hfront⟩
      | _ =>
          cases front with
          | nil => simp [matchTokens] at hfront
          | cons c rest =>
              simp only [matchTokens, Bool.and_eq_true] at hfront
              simp only [List.cons_append, matchTokens, Bool.and_eq_true]
              exact ⟨hfront.1, ih hplain.2 hfront.2⟩

theorem matchTokens_char (text : List Char) : matchTokens (text.map .char) text := by
  induction text with
  | nil => rfl
  | cons c text ih => simp [matchTokens, Token.accepts, ih]

theorem glue_eq_append (hplain : .anyComponents ∉ first) :
    glue first second = first ++ .char '/' :: second := by
  fun_induction glue first second with
  | case1 => rfl
  | case2 => simp at hplain
  | case3 _ _ _ _ ih =>
      simp only [List.mem_cons, not_or] at hplain
      rw [ih hplain.2, List.cons_append]

/-- A component and what follows it match a text with a slash between two parts that they match. -/
theorem Pattern.IsComponent.matchTokens_glue (h : p.IsComponent)
    (hfront : matchTokens p.tokens front) (hback : matchTokens second back) :
    matchTokens (glue p.tokens second) (front ++ '/' :: back) := by
  by_cases hany : .anyComponents ∈ p.tokens
  · rw [h.alone hany, glue]
    refine matchTokens_anyComponents_append ?_ front
    rw [matchTokens, hback, Bool.true_or]
  · rw [glue_eq_append hany]
    exact matchTokens_append hany hfront (by simpa [matchTokens, Token.accepts] using hback)

/-! ### Names that components lead through -/

/-- A name that a component of a pattern may lead to. -/
structure Pattern.Finds (p : Pattern) (name : String) : Prop where
  matched : p.matchesText name
  ne_nil : name.toList ≠ []
  no_slash : '/' ∉ name.toList
  hidden : name = "." → "." ∈ hiddenNames p

/-- The names that the components of a pattern lead through. -/
inductive Covers : List Pattern → List String → Prop where
  | last {p : Pattern} {name : String} (hfinds : p.Finds name) : Covers [p] [name]
  | next {p : Pattern} {rest : List Pattern} {name : String} {names : List String}
      (hfinds : p.Finds name) : Covers rest names → Covers (p :: rest) (name :: names)
  /-- `**` may stand for no component. -/
  | skip {p : Pattern} {rest : List Pattern} {names : List String} (hrecursive : p.isRecursive) :
      Covers rest names → Covers (p :: rest) names
  /-- `**` may stand for one more component. -/
  | deeper {p : Pattern} {rest : List Pattern} {name : String} {names : List String}
      (hrecursive : p.isRecursive) (hfinds : p.Finds name) :
      Covers (p :: rest) names → Covers (p :: rest) (name :: names)

/-- The text of a path that leads through some names. -/
def spelling (names : List String) : List Char := Text.join '/' (names.map String.toList)

theorem Covers.ne_nil {components : List Pattern} {names : List String}
    (h : Covers components names) : components ≠ [] ∧ names ≠ [] := by
  induction h with
  | last => simp
  | next => simp
  | skip _ _ ih => exact ⟨by simp, ih.2⟩
  | deeper => simp

@[simp] theorem spelling_singleton (name : String) : spelling [name] = name.toList := by
  simp [spelling]

theorem spelling_cons {names : List String} (name : String) (hne : names ≠ []) :
    spelling (name :: names) = name.toList ++ '/' :: spelling names := by
  cases names with
  | nil => exact absurd rfl hne
  | cons second names => exact Text.join_cons_cons '/' _ _ _

theorem joined_cons {rest : List Pattern} (p : Pattern) (hne : rest ≠ []) :
    joined (p :: rest) = glue p.tokens (joined rest) := by
  cases rest with
  | nil => exact absurd rfl hne
  | cons q rest => rfl

/-- The whole pattern matches the text of the names that its components lead through. -/
theorem Covers.matchTokens_joined {components : List Pattern} {names : List String}
    (h : Covers components names) (hcomponents : ∀ p ∈ components, p.IsComponent) :
    matchTokens (joined components) (spelling names) := by
  induction h with
  | last hfinds =>
      rw [joined, spelling_singleton]
      exact hfinds.matched
  | @next p rest name names hfinds h ih =>
      obtain ⟨hp, hrest⟩ := List.forall_mem_cons.mp hcomponents
      rw [joined_cons p h.ne_nil.1, spelling_cons name h.ne_nil.2]
      exact hp.matchTokens_glue hfinds.matched (ih hrest)
  | @skip p rest names hrecursive h ih =>
      obtain ⟨hp, hrest⟩ := List.forall_mem_cons.mp hcomponents
      rw [joined_cons p h.ne_nil.1, hp.alone (by simpa [Pattern.isRecursive] using hrecursive),
        glue, matchTokens, ih hrest, Bool.true_or]
  | @deeper p rest name names hrecursive _ h ih =>
      have hp := hcomponents p List.mem_cons_self
      have hjoined : ∃ tokens, joined (p :: rest) = .anyComponents :: tokens := by
        have hany := hp.alone (by simpa [Pattern.isRecursive] using hrecursive)
        cases rest with
        | nil => exact ⟨[], hany⟩
        | cons q rest => exact ⟨_, by rw [joined, hany, glue]⟩
      obtain ⟨tokens, hjoined⟩ := hjoined
      rw [spelling_cons name h.ne_nil.2]
      rw [hjoined] at ih ⊢
      exact matchTokens_anyComponents_append (ih hcomponents) name.toList

end FlexFold.Glob
