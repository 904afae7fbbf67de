import FlexFold.Proofs.Backlog

/-!
The class lists that directives lead to. Their tokens are words, whatever the value was that they
were read from, because every step adds nothing but words. So such a list can be printed and read
again between any two steps.
-/

namespace FlexFold.ClassList

open Text (IsWord)

variable {value : String} {list : ClassList}

/-! ### One step -/

theorem isWord_parse (value : String) : ∀ w ∈ (parse value).tokens, IsWord w := by
  intro w hw
  rw [tokens_parse, List.mem_eraseDups] at hw
  exact Text.isWord_of_mem_words hw

theorem isWord_extend (h : ∀ w ∈ list.tokens, IsWord w) {texts : List String}
    (htexts : ∀ w ∈ texts, IsWord w) : ∀ w ∈ (list.extend texts).tokens, IsWord w := by
  intro w hw
  rw [tokens_extend list htexts, List.mem_eraseDups] at hw
  exact List.forall_mem_append.mpr ⟨h, htexts⟩ w hw

-- Text that is no word may be added to a list, but not read from it again.
example : (empty.extend ["two words"]).tokens = ["two words"] ∧
    (parse (empty.extend ["two words"]).text).tokens = ["two", "words"] := by
  decide +kernel

/-- A change that was registered leaves its outcome, and that is made of words. -/
theorem isWord_apply (h : ∀ w ∈ list.tokens, IsWord w) {change : Deferred}
    (hchange : change.IsRegistered) : ∀ w ∈ (change.apply list).tokens, IsWord w := by
  have happend : change.AppendsWord := by
    obtain ⟨a, ha⟩ := hchange
    exact (Directive.isClean_effect _).deferred change ha
  rw [Deferred.tokens_apply happend, Deferred.on_eq_outcome (Deferred.isRegistered_iff.mp hchange)]
  exact Deferred.isWord_of_mem_outcome h

/-! ### Any number of steps -/

/-- The lists that a value and some directives lead to, in whatever order utilities are added and
changes are carried out. -/
inductive Reached (value : String) : ClassList → Prop where
  | parse : Reached value (parse value)
  | extend {list : ClassList} (h : Reached value list) (a : Markup.Attribute) :
      Reached value (list.extend (Directive.ofAttribute a).effect.utilities)
  | apply {list : ClassList} (h : Reached value list) {change : Deferred}
      (hchange : change.IsRegistered) : Reached value (change.apply list)

theorem Reached.isWord (h : Reached value list) : ∀ w ∈ list.tokens, IsWord w := by
  induction h with
  | parse => exact isWord_parse value
  | extend _ a ih => exact isWord_extend ih (Directive.isClean_effect _).utilities
  | apply _ hchange ih => exact isWord_apply ih hchange

/-- The tokens of such a list differ from one another, none of them is empty or has a blank in it,
and the text of the list is read as the same tokens in the same order. -/
theorem parse_text_of_reached (h : Reached value list) :
    list.tokens.Nodup ∧
      (∀ w ∈ list.tokens, w ≠ "" ∧ ∀ c ∈ w.toList, Text.isBlank c = false) ∧
      (parse list.text).tokens = list.tokens := by
  have hword := h.isWord
  exact ⟨list.nodup, fun w hw => ⟨(hword w hw).ne_empty, (hword w hw).noBlank⟩,
    tokens_parse_text hword⟩

/-- A list that was read from a value with wide blanks and a repetition, to which an inline column
and a stretched axis contribute. -/
def reachedInline : ClassList :=
  Deferred.stretch.apply (Deferred.inline.apply
    ((parse "card\u2003flex\u00a0 card inline-flex").extend ["flex", "flex-col"]))

theorem parse_text_of_reached_inline :
    Reached "card\u2003flex\u00a0 card inline-flex" reachedInline ∧
      reachedInline.tokens = ["card", "inline-flex", "flex-col", "max-h-full"] ∧
      (parse reachedInline.text).tokens = reachedInline.tokens := by
  let layout : Markup.Attribute := { name := "fxLayout", value := some "column inline" }
  have hutilities : (Directive.ofAttribute layout).effect.utilities = ["flex", "flex-col"] := by
    decide +kernel
  have hextend : Reached "card\u2003flex\u00a0 card inline-flex" _ := .extend .parse layout
  rw [hutilities] at hextend
  have hreached : Reached "card\u2003flex\u00a0 card inline-flex" reachedInline :=
    (hextend.apply (Deferred.isRegistered_iff.mpr (.inl rfl))).apply
      (Deferred.isRegistered_iff.mpr (.inr rfl))
  exact ⟨hreached, by decide +kernel, (parse_text_of_reached hreached).2.2⟩

end FlexFold.ClassList
