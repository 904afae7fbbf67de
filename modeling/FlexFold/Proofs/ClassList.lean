import FlexFold.Deferred
import FlexFold.Proofs.FirstSeen

/-!
Class lists as lists of words. A list of words that is printed and read again is the same list, so
nothing is lost when the value of a class attribute is taken apart and put together in between.
-/

namespace FlexFold

namespace Text

/-! ### Words -/

/-- A text that is one word. -/
structure IsWord (text : String) : Prop where
  ne_empty : text ≠ ""
  noBlank : ∀ c ∈ text.toList, isBlank c = false

instance (text : String) : Decidable (IsWord text) :=
  decidable_of_iff (text ≠ "" ∧ text.toList.all fun c => !isBlank c) <| by
    simp only [List.all_eq_true, Bool.not_eq_true']
    exact ⟨fun h => ⟨h.1, h.2⟩, fun h => ⟨h.1, h.2⟩⟩

theorem IsWord.toList_ne_nil {text : String} (h : IsWord text) : text.toList ≠ [] :=
  fun hnil => h.ne_empty (String.toList_inj.mp (hnil.trans String.toList_empty.symm))

theorem closeWord_of_ne_nil {word : List Char} (h : word ≠ []) :
    closeWord word = [word.reverse] := by
  cases word with
  | nil => exact (h rfl).elim
  | cons c word => rfl

theorem mem_closeWord {word w : List Char} (hword : ∀ c ∈ word, isBlank c = false)
    (h : w ∈ closeWord word) : w ≠ [] ∧ ∀ c ∈ w, isBlank c = false := by
  cases word with
  | nil => cases h
  | cons c word =>
      obtain rfl := List.mem_singleton.mp h
      exact ⟨by simp, fun d hd => hword d (List.mem_reverse.mp hd)⟩

theorem mem_wordsFrom {word text w : List Char} (hword : ∀ c ∈ word, isBlank c = false)
    (h : w ∈ wordsFrom word text) : w ≠ [] ∧ ∀ c ∈ w, isBlank c = false := by
  induction text generalizing word with
  | nil => exact mem_closeWord hword h
  | cons c text ih =>
      rw [wordsFrom] at h
      split at h
      · rcases List.mem_append.mp h with h | h
        · exact mem_closeWord hword h
        · exact ih (by simp) h
      · next hc =>
          refine ih (fun d hd => ?_) h
          rcases List.mem_cons.mp hd with rfl | hd
          · simpa using hc
          · exact hword d hd

theorem isWord_of_mem_words {text w : String} (h : w ∈ words text) : IsWord w := by
  obtain ⟨chars, hchars, rfl⟩ := List.mem_map.mp h
  obtain ⟨hne, hblank⟩ := mem_wordsFrom (by simp) hchars
  exact ⟨by simpa using hne, by simpa using hblank⟩

/-- The word that was begun goes on as long as there is no blank. -/
theorem wordsFrom_append {chars : List Char} (hchars : ∀ c ∈ chars, isBlank c = false)
    (word text : List Char) :
    wordsFrom word (chars ++ text) = wordsFrom (chars.reverse ++ word) text := by
  induction chars generalizing word with
  | nil => rfl
  | cons c chars ih =>
      rw [List.cons_append, wordsFrom, if_neg (by simp [hchars c (by simp)]),
        ih fun d hd => hchars d (by simp [hd])]
      simp

/-- The words of a text that spells some words are these words. -/
theorem words_spaced {ws : List String} (h : ∀ w ∈ ws, IsWord w) : words (spaced ws) = ws := by
  have hfrom : wordsFrom [] ([' '].intercalate (ws.map String.toList)) = ws.map String.toList := by
    induction ws with
    | nil => rfl
    | cons w ws ih =>
        have hw : IsWord w := h w (by simp)
        have hclose : closeWord w.toList.reverse = [w.toList] := by
          rw [closeWord_of_ne_nil (by simpa using hw.toList_ne_nil), List.reverse_reverse]
        have hrest := ih fun v hv => h v (by simp [hv])
        cases ws with
        | nil =>
            have hlast := wordsFrom_append hw.noBlank [] []
            simpa [wordsFrom, hclose] using hlast
        | cons v ws =>
            rw [List.map_cons, List.map_cons, List.intercalate_cons_cons, List.append_assoc,
              wordsFrom_append hw.noBlank, List.singleton_append, wordsFrom, if_pos (by decide),
              List.append_nil, hclose, List.singleton_append, ← List.map_cons, hrest]
  have hofList : (String.ofList ∘ String.toList) = id := funext fun w => String.ofList_toList
  rw [words, spaced, String.toList_ofList, hfrom, List.map_map, hofList, List.map_id]

theorem wordsFrom_eq_nil_iff {word text : List Char} :
    wordsFrom word text = [] ↔ word = [] ∧ text.all isBlank := by
  induction text generalizing word with
  | nil => cases word <;> simp [wordsFrom, closeWord]
  | cons c text ih =>
      rw [wordsFrom, List.all_cons]
      split
      · next hc => cases word <;> simp [hc, ih, closeWord]
      · next hc => simp [hc, ih]

/-- A text has no words if it has nothing but blanks. -/
theorem words_eq_nil_iff (text : String) : words text = [] ↔ isBlankText text := by
  rw [words, List.map_eq_nil_iff, wordsFrom_eq_nil_iff, isBlankText]
  exact and_iff_right rfl

/-- A word has no blanks to take away. -/
theorem trim_of_isWord {w : String} (h : IsWord w) : trim w = w := by
  have hkeep : ∀ {chars : List Char}, (∀ c ∈ chars, isBlank c = false) →
      chars.dropWhile isBlank = chars := by
    intro chars hchars
    cases chars with
    | nil => rfl
    | cons c chars => rw [List.dropWhile_cons_of_neg (by simp [hchars c (by simp)])]
  rw [trim, hkeep h.noBlank, hkeep fun c hc => h.noBlank c (List.mem_reverse.mp hc),
    List.reverse_reverse, String.ofList_toList]

end Text

namespace ClassList

open Text (IsWord)

/-! ### Tokens -/

theorem tokens_push (list : ClassList) (token : String) :
    (list.push token).tokens = (list.tokens ++ [token]).eraseDups := by
  rw [eraseDups_concat, eraseDups_of_nodup list.nodup, push]
  split <;> rfl

theorem tokens_pushAll (list : ClassList) (tokens : List String) :
    (list.pushAll tokens).tokens = (list.tokens ++ tokens).eraseDups := by
  induction tokens generalizing list with
  | nil => rw [List.append_nil, eraseDups_of_nodup list.nodup]; rfl
  | cons token tokens ih =>
      have hstep : list.pushAll (token :: tokens) = (list.push token).pushAll tokens := rfl
      rw [hstep, ih, tokens_push, eraseDups_eraseDups_append, List.append_assoc,
        List.singleton_append]

theorem tokens_ofTokens (tokens : List String) : (ofTokens tokens).tokens = tokens.eraseDups :=
  tokens_pushAll empty tokens

theorem tokens_parse (value : String) : (parse value).tokens = (Text.words value).eraseDups :=
  tokens_ofTokens _

theorem tokens_extend (list : ClassList) {texts : List String} (h : ∀ w ∈ texts, IsWord w) :
    (list.extend texts).tokens = (list.tokens ++ texts).eraseDups := by
  have htrim : texts.map Text.trim = texts :=
    (List.map_congr_left fun w hw => Text.trim_of_isWord (h w hw)).trans (List.map_id texts)
  have hfilter : texts.filter (· ≠ "") = texts :=
    List.filter_eq_self.mpr fun w hw => by simpa using (h w hw).ne_empty
  rw [extend, tokens_pushAll, htrim, hfilter]

/-- What a replacement puts in the place of a token. -/
def substitute (old new token : String) : String := if token = old then new else token

theorem substitute_of_ne {old token : String} (h : token ≠ old) (new : String) :
    substitute old new token = token := if_neg h

theorem map_substitute {old : String} {tokens : List String} (h : old ∉ tokens) (new : String) :
    tokens.map (substitute old new) = tokens := by
  have hkeep : ∀ t ∈ tokens, substitute old new t = t := by
    intro t ht
    have hne : t ≠ old := fun heq => h (heq ▸ ht)
    exact substitute_of_ne hne new
  exact (List.map_congr_left hkeep).trans (List.map_id tokens)

theorem replace_of_notMem {list : ClassList} {old : String} (h : old ∉ list.tokens)
    (new : String) : list.replace old new = list := by
  rw [replace, if_neg]
  rwa [contains, List.contains_iff_mem]

theorem tokens_replace (list : ClassList) (old new : String) :
    (list.replace old new).tokens = (list.tokens.map (substitute old new)).eraseDups := by
  by_cases h : old ∈ list.tokens
  · have hcontains : list.contains old = true := List.contains_iff_mem.mpr h
    rw [replace, if_pos hcontains]
    exact tokens_ofTokens _
  · rw [replace_of_notMem h, map_substitute h, eraseDups_of_nodup list.nodup]

/-- Reading what was printed gives the same tokens. -/
theorem tokens_parse_text {list : ClassList} (h : ∀ w ∈ list.tokens, IsWord w) :
    (parse list.text).tokens = list.tokens := by
  rw [tokens_parse, text, Text.words_spaced h, eraseDups_of_nodup list.nodup]

end ClassList

namespace Deferred

open Text (IsWord)

/-! ### Changes that wait -/

/-- A change carried out on a plain list of tokens. -/
def on (tokens : List String) : Deferred → List String
  | .rewriteToken old new => (tokens.map fun t => if t = old then new else t).eraseDups
  | .appendByDirection columnTokens ifColumn otherwise =>
      (tokens ++ [if columnTokens.any (· ∈ tokens) then ifColumn else otherwise]).eraseDups

/-- What a change adds at the end is one word. -/
def AppendsWord : Deferred → Prop
  | .rewriteToken _ _ => True
  | .appendByDirection _ ifColumn otherwise => IsWord ifColumn ∧ IsWord otherwise

theorem tokens_apply {change : Deferred} (h : change.AppendsWord) (list : ClassList) :
    (change.apply list).tokens = change.on list.tokens := by
  cases change with
  | rewriteToken old new => exact list.tokens_replace old new
  | appendByDirection columnTokens ifColumn otherwise =>
      have hany : columnTokens.any list.contains = columnTokens.any (· ∈ list.tokens) := by
        congr 1
        funext token
        rw [Bool.eq_iff_iff, ClassList.contains, List.contains_iff_mem, decide_eq_true_iff]
      rw [apply, on, ← hany]
      apply ClassList.tokens_extend
      intro w hw
      rw [List.mem_singleton.mp hw]
      split
      · exact h.1
      · exact h.2

theorem tokens_foldl_apply {changes : List Deferred} (h : ∀ d ∈ changes, d.AppendsWord)
    (list : ClassList) :
    (changes.foldl (fun l change => change.apply l) list).tokens =
      changes.foldl on list.tokens := by
  induction changes generalizing list with
  | nil => rfl
  | cons change changes ih =>
      rw [List.foldl_cons, List.foldl_cons, ih fun d hd => h d (by simp [hd]),
        tokens_apply (h change (by simp))]

end Deferred

end FlexFold
