import FlexFold.Proofs.Json.Numerals
import FlexFold.Proofs.Json.Quoted
import FlexFold.Proofs.Json.Recover
import FlexFold.Proofs.Json.Yields

/-!
Which texts a reader accepts: those that spell a value with some property, and no others. For an
object this is a property of its fields, which are met one by one while the text is read.
-/

namespace FlexFold.Json

open Decimal (isDigit)

/-! ### Blanks -/

theorem skipSpaces_blank_append {w : List Char} (hw : IsBlank w) (s : List Char) :
    skipSpaces (w ++ s) = skipSpaces s := by
  induction w with
  | nil => rfl
  | cons c w ih =>
      rw [List.cons_append, skipSpaces, if_pos (hw c (by simp)), ih fun d hd => hw d (by simp [hd])]

theorem exists_blank (s : List Char) : ∃ w, IsBlank w ∧ s = w ++ skipSpaces s := by
  induction s with
  | nil => exact ⟨[], nofun, rfl⟩
  | cons c s ih =>
      rw [skipSpaces]
      split
      · next hc =>
          obtain ⟨w, hw, hs⟩ := ih
          exact ⟨c :: w, List.forall_mem_cons.mpr ⟨hc, hw⟩, by rw [List.cons_append, ← hs]⟩
      · exact ⟨[], nofun, rfl⟩

theorem skipSpaces_comma {w : List Char} (hw : IsBlank w) (s : List Char) :
    skipSpaces (w ++ ',' :: s) = ',' :: s :=
  skipSpaces_blank_append hw (',' :: s)

theorem endsNumber_blank_append {w s : List Char} (hw : IsBlank w) (hs : EndsNumber s) :
    EndsNumber (w ++ s) := by
  cases w with
  | nil => exact hs
  | cons c w =>
      have hc : isSpace c = true := hw c (by simp)
      simp only [isSpace, Bool.or_eq_true, beq_iff_eq] at hc
      rcases hc with ((rfl | rfl) | rfl) | rfl <;> exact endsNumber_cons rfl rfl (by decide)

/-! ### How values begin -/

theorem Numeral.exists_head (x : Numeral) : ∃ c t, x.text = c :: t ∧ (c = '-' ∨ isDigit c) := by
  obtain ⟨d, ds, hwhole⟩ := List.exists_cons_of_ne_nil x.whole_ne_nil
  unfold Numeral.text
  cases x.negative with
  | true => exact ⟨'-', _, rfl, .inl rfl⟩
  | false => exact ⟨d, _, by simp [hwhole]; rfl, .inr (x.isDigit_whole d (by simp [hwhole]))⟩

theorem Spells.startsItem {value : Value} {u : List Char} (h : Spells value u) (t : List Char) :
    StartsItem (u ++ t) := by
  cases h with
  | @number x n _ =>
      obtain ⟨c, u, htext, hc⟩ := x.exists_head
      exact ⟨c, u ++ t, by rw [htext]; rfl, isSpace_of_isDigit hc, ne_of_isDigit hc (by decide)⟩
  | _ => exact ⟨_, _, rfl, rfl, by decide⟩

theorem Spells.skipSpaces_append {value : Value} {u : List Char} (h : Spells value u)
    (t : List Char) : skipSpaces (u ++ t) = u ++ t :=
  skipSpaces_of_startsItem (h.startsItem t)

/-- Only `null` begins as `null` does. -/
theorem Spells.eq_null {value : Value} {u t s : List Char} (h : Spells value u)
    (hs : u ++ t = 'n' :: s) : value = .null := by
  cases h with
  | null => rfl
  | @number x n _ =>
      obtain ⟨c, u, htext, hc⟩ := x.exists_head
      rw [htext] at hs
      obtain rfl := (List.cons.inj hs).1
      rcases hc with hc | hc <;> cases hc
  | _ => cases hs

/-! ### Readers -/

namespace Reader

variable {α β σ : Type} {r : Reader α} {p q : Value → Prop}

/-- A reader accepts a text if it begins with a value that has a property, and only then. -/
structure Recognizes (r : Reader α) (p : Value → Prop) : Prop where
  sound : ∀ {s a t}, r.run s = .ok (a, t) → ∃ v u, Spells v u ∧ p v ∧ skipSpaces s = u ++ t
  complete : ∀ {v u s t}, Spells v u → p v → EndsNumber t → skipSpaces s = u ++ t →
    ∃ a, r.run s = .ok (a, t)

theorem Recognizes.congr (h : r.Recognizes p) (hiff : ∀ v, p v ↔ q v) : r.Recognizes q := by
  rwa [← show p = q from funext fun v => propext (hiff v)]

theorem Recognizes.map (f : α → β) (h : r.Recognizes p) : (r.map f).Recognizes p where
  sound := by
    intro s b t hrun
    simp only [Reader.map] at hrun
    split at hrun
    · cases hrun
    · next a u ha =>
        cases hrun
        exact h.sound ha
  complete := by
    intro v u s t hv hp ht hs
    obtain ⟨a, ha⟩ := h.complete hv hp ht hs
    exact ⟨f a, by simp [Reader.map, ha]⟩

theorem literal_eq_ok_iff {expected s t : List Char} :
    literal expected s = .ok t ↔ s = expected ++ t := by
  induction expected generalizing s with
  | nil => simp [literal]
  | cons e expected ih =>
      cases s with
      | nil => simp [literal]
      | cons c s =>
          rw [literal, List.cons_append, List.cons.injEq]
          split
          · next hc => simp [hc, ih]
          · next hc => simp [hc]

theorem literalAs_eq_ok_iff {letters s t : List Char} {a b : α} :
    literalAs letters a s = .ok (b, t) ↔ a = b ∧ s = letters ++ t := by
  unfold literalAs
  split
  · next hl =>
      have hnot : s ≠ letters ++ t := fun h => by
        rw [literal_eq_ok_iff.mpr h] at hl
        cases hl
      simp [hnot]
  · next hl =>
      rw [literal_eq_ok_iff] at hl
      simp [hl]

theorem recognizes_string : string.Recognizes fun v => ∃ s, v = .string s where
  sound := by
    intro s text t hrun
    simp only [string, spaced, runSpaced] at hrun
    split at hrun
    · cases hrun
    · next c u hc =>
        split at hrun
        · next hquote =>
            obtain ⟨chars, body, hchars, rfl, rfl⟩ := stringBody_eq_ok_iff.mp hrun
            exact ⟨_, _, .string hchars, ⟨_, rfl⟩, by simp [hc, hquote]⟩
        · cases hrun
  complete := by
    rintro v u s t hv ⟨text, rfl⟩ - hs
    cases hv with
    | @string chars _ hchars =>
        refine ⟨String.ofList chars, ?_⟩
        rw [List.cons_append, List.append_assoc] at hs
        simp only [string, spaced, runSpaced, hs, if_true]
        exact stringBody_eq_ok_iff.mpr ⟨_, _, hchars, rfl, rfl⟩

theorem Recognizes.nullable (h : r.Recognizes p) :
    r.nullable.Recognizes fun v => v = .null ∨ p v where
  sound := by
    intro s found t hrun
    simp only [Reader.nullable] at hrun
    split at hrun
    · next u hu =>
        obtain ⟨-, rfl⟩ := literalAs_eq_ok_iff.mp hrun
        exact ⟨.null, _, .null, .inl rfl, hu⟩
    · split at hrun
      · cases hrun
      · next a u ha =>
          cases hrun
          obtain ⟨v, u, hv, hp, hs⟩ := h.sound ha
          rw [skipSpaces_skipSpaces] at hs
          exact ⟨v, u, hv, .inr hp, hs⟩
  complete := by
    intro v u s t hv hp ht hs
    simp only [Reader.nullable]
    split
    · next w hw =>
        obtain rfl := hv.eq_null (hs.symm.trans hw)
        cases hv
        rw [hw] at hs
        exact ⟨none, literalAs_eq_ok_iff.mpr ⟨rfl, (List.cons.inj hs).2⟩⟩
    · next hnot =>
        have hp : p v := by
          refine hp.resolve_left ?_
          rintro rfl
          cases hv
          exact hnot _ hs
        have hskip : skipSpaces (skipSpaces s) = u ++ t := by rw [skipSpaces_skipSpaces, hs]
        obtain ⟨a, ha⟩ := h.complete hv hp ht hskip
        exact ⟨some a, by rw [ha]⟩

/-! ### Arrays -/

theorem endsNumber_parts {γ : Type} {part : γ → List Char → Prop} {as : List γ} {u t : List Char}
    (h : Parts part false as u) (ht : EndsNumber t) : EndsNumber (u ++ t) := by
  cases h with
  | close hw => exact endsNumber_blank_append hw ht
  | cons hsep =>
      cases hsep with
      | comma hw =>
          rw [List.append_assoc, List.append_assoc]
          exact endsNumber_blank_append hw (endsNumber_cons rfl rfl (by decide))

theorem skipSpaces_of_nextItem_close {first : Bool} {s t : List Char}
    (h : nextItem first s = .ok (.close t)) : skipSpaces s = ']' :: t := by
  unfold nextItem at h
  split at h
  · cases h
  · next c u hc =>
      split at h
      · next hbracket =>
          cases h
          rw [hc, hbracket]
      · repeat' split at h
        all_goals cases h

theorem exists_separator_of_nextItem {first : Bool} {s t : List Char}
    (h : nextItem first s = .ok (.part t)) :
    ∃ sep, Separator first sep ∧ s = sep ++ t ∧ skipSpaces t = t := by
  obtain ⟨w, hw, hs⟩ := exists_blank s
  have hskip := skipSpaces_skipSpaces s
  unfold nextItem at h
  split at h
  · cases h
  · next c u hc =>
      rw [hc] at hs hskip
      split at h
      · cases h
      split at h
      · next hfirst =>
          cases h
          exact ⟨w, hfirst ▸ .first hw, hs, hskip⟩
      · next hnot =>
          split at h
          · next hcomma =>
              obtain ⟨w', hw', hu⟩ := exists_blank u
              have hskip' := skipSpaces_skipSpaces u
              split at h
              · cases h
              · next d v hd =>
                  rw [hd] at hu hskip'
                  split at h
                  · cases h
                  · cases h
                    obtain rfl : first = false := by simpa using hnot
                    refine ⟨w ++ ',' :: w', .comma hw hw', ?_, hskip'⟩
                    rw [hs, hcomma, hu, List.append_assoc, List.cons_append]
          · cases h

theorem nextItem_separator {first : Bool} {sep t : List Char} (hsep : Separator first sep)
    (ht : StartsItem t) : nextItem first (sep ++ t) = .ok (.part t) := by
  have hskip := skipSpaces_of_startsItem ht
  obtain ⟨c, u, rfl, -, hc⟩ := ht
  cases hsep with
  | first hw => simp [nextItem, skipSpaces_blank_append hw, hskip, hc]
  | comma hw hw' =>
      rw [List.append_assoc, List.cons_append]
      simp [nextItem, skipSpaces_comma hw, skipSpaces_blank_append hw', hskip, hc]

theorem Recognizes.exists_parts (h : r.Recognizes p) {before as : List α} {first : Bool}
    {s t : List Char} (hrun : itemsOnto r before first s = .ok (as, t)) :
    ∃ items u, Parts Spells first items u ∧ (∀ item ∈ items, p item) ∧ s = u ++ ']' :: t := by
  fun_induction itemsOnto r before first s with
  | case1 => cases hrun
  | case2 before first s u hn =>
      cases hrun
      obtain ⟨w, hw, hs⟩ := exists_blank s
      rw [skipSpaces_of_nextItem_close hn] at hs
      exact ⟨[], w, .close hw, by simp, hs⟩
  | case3 => cases hrun
  | case4 before first s u hn a rest ha ih =>
      obtain ⟨sep, hsep, rfl, hskip⟩ := exists_separator_of_nextItem hn
      obtain ⟨v, text, hv, hp, hu⟩ := h.sound ha
      obtain ⟨items, more, hparts, hitems, rfl⟩ := ih hrun
      refine ⟨v :: items, _, .cons hsep hv hparts, List.forall_mem_cons.mpr ⟨hp, hitems⟩, ?_⟩
      rw [← hskip, hu]
      simp only [List.append_assoc]

theorem Recognizes.itemsOnto_parts (h : r.Recognizes p) {first : Bool} {items : List Value}
    {u : List Char} (hparts : Parts Spells first items u) (hitems : ∀ item ∈ items, p item)
    (before : List α) (t : List Char) :
    ∃ as, itemsOnto r before first (u ++ ']' :: t) = .ok (as, t) := by
  have hends : EndsNumber (']' :: t) := endsNumber_cons rfl rfl (by decide)
  induction hparts generalizing before with
  | close hw => exact ⟨_, itemsOnto_close (nextItem_close (skipSpaces_blank_append hw _))⟩
  | @cons first v items sep text rest hsep hv hrest ih =>
      obtain ⟨hp, hitems⟩ := List.forall_mem_cons.mp hitems
      obtain ⟨a, ha⟩ := h.complete hv hp (endsNumber_parts hrest hends) (hv.skipSpaces_append _)
      obtain ⟨as, has⟩ := ih hitems (a :: before)
      refine ⟨as, ?_⟩
      rw [List.append_assoc, List.append_assoc,
        itemsOnto_part (nextItem_separator hsep (hv.startsItem _)), ha]
      exact has

theorem recognizes_array (h : r.Recognizes p) :
    (array (some r)).Recognizes fun v => ∃ items, v = .array items ∧ ∀ item ∈ items, p item where
  sound := by
    intro s as t hrun
    simp only [array, spaced, runSpaced] at hrun
    split at hrun
    · cases hrun
    · next c u hc =>
        split at hrun
        · next hbracket =>
            obtain ⟨items, body, hparts, hitems, rfl⟩ := h.exists_parts hrun
            exact ⟨_, _, .array hparts, ⟨items, rfl, hitems⟩, by simp [hc, hbracket]⟩
        · cases hrun
  complete := by
    rintro v u s t hv ⟨items, rfl, hitems⟩ - hs
    cases hv with
    | array hparts =>
        obtain ⟨as, has⟩ := h.itemsOnto_parts hparts hitems [] t
        rw [List.cons_append, List.append_assoc, List.singleton_append] at hs
        exact ⟨as, by simpa only [array, spaced, runSpaced, hs, if_true] using has⟩

/-- A reader of arrays that may not open one accepts nothing. -/
theorem recognizes_array_none : (array (none : Option (Reader α))).Recognizes fun _ => False where
  sound := by
    intro s as t hrun
    simp only [array, spaced, runSpaced] at hrun
    split at hrun
    · cases hrun
    · split at hrun <;> cases hrun
  complete := fun _ h => h.elim

/-! ### Objects -/

theorem skipSpaces_of_nextKey_close {first : Bool} {s t : List Char}
    (h : nextKey first s = .ok (.close t)) : skipSpaces s = '\x7d' :: t := by
  unfold nextKey at h
  split at h
  · cases h
  · next c u hc =>
      split at h
      · next hbrace =>
          cases h
          rw [hc, hbrace]
      · repeat' split at h
        all_goals cases h

theorem exists_separator_of_nextKey {first : Bool} {s t : List Char}
    (h : nextKey first s = .ok (.part t)) :
    ∃ sep, Separator first sep ∧ s = sep ++ '"' :: t := by
  obtain ⟨w, hw, hs⟩ := exists_blank s
  unfold nextKey at h
  split at h
  · cases h
  · next c u hc =>
      rw [hc] at hs
      split at h
      · cases h
      split at h
      · next hfirst =>
          split at h
          · next hquote =>
              cases h
              exact ⟨w, hfirst ▸ .first hw, by rw [hs, hquote]⟩
          · cases h
      · next hnot =>
          split at h
          · next hcomma =>
              obtain ⟨w', hw', hu⟩ := exists_blank u
              split at h
              · cases h
              · next d v hd =>
                  rw [hd] at hu
                  split at h
                  · next hquote =>
                      cases h
                      obtain rfl : first = false := by simpa using hnot
                      refine ⟨w ++ ',' :: w', .comma hw hw', ?_⟩
                      rw [hs, hcomma, hu, hquote, List.append_assoc, List.cons_append]
                  · split at h <;> cases h
          · cases h

theorem nextKey_separator {first : Bool} {sep : List Char} (hsep : Separator first sep)
    (t : List Char) : nextKey first (sep ++ '"' :: t) = .ok (.part t) := by
  have hquote : skipSpaces ('"' :: t) = '"' :: t := rfl
  cases hsep with
  | first hw => exact nextKey_first ((skipSpaces_blank_append hw _).trans hquote)
  | comma hw hw' =>
      rw [List.append_assoc, List.cons_append]
      simp [nextKey, skipSpaces_comma hw, skipSpaces_blank_append hw', hquote]

theorem colon_eq_ok_iff {s t : List Char} : colon s = .ok t ↔ skipSpaces s = ':' :: t := by
  unfold colon
  split
  · next hs => simp [hs]
  · next c u hs =>
      split
      · next hc => simp [hs, hc]
      · next hc => simp [hs, hc]

/-- How the fields are gathered: a known key is met at most once, every value has the property that
goes with its key, and in the end all keys that are required were met. `met` says which of the known
keys a state has met. -/
structure Follows (g : Gather σ α) (known required : List String)
    (p : String → Value → Prop) (met : σ → String → Prop) : Prop where
  required_subset : required ⊆ known
  start : ∀ key, ¬ met g.start key
  refused : ∀ {state key}, met state key → ∃ cause, g.field state key = .error cause
  field : ∀ {state key}, ¬ met state key → ∃ r : Reader σ, g.field state key = .ok r ∧
    r.Recognizes (p key) ∧ r.Yields fun next => ∀ k, met next k ↔ met state k ∨ k = key ∧ k ∈ known
  finish : ∀ {state}, (∃ a, g.finish state = .ok a) ↔ ∀ key ∈ required, met state key

/-- The fields of an object that can be gathered in this way. -/
structure Fit (known required : List String) (p : String → Value → Prop) (fields : Fields) :
    Prop where
  /-- No known key occurs twice. -/
  once : ∀ key ∈ known, (fields.map Prod.fst).count key ≤ 1
  required : ∀ key ∈ required, key ∈ fields.map Prod.fst
  values : ∀ field ∈ fields, p field.1 field.2

/-- The fields that can still be gathered after some keys. -/
structure FitAfter (seen known required : List String) (p : String → Value → Prop)
    (fields : Fields) : Prop where
  once : ∀ key ∈ known, (seen ++ fields.map Prod.fst).count key ≤ 1
  required : ∀ key ∈ required, key ∈ seen ++ fields.map Prod.fst
  values : ∀ field ∈ fields, p field.1 field.2

section

variable {g : Gather σ α} {known required seen : List String} {p : String → Value → Prop}
  {met : σ → String → Prop} {state : σ}

/-- The reader of a field whose value goes into the state. -/
theorem Recognizes.field {q : Value → Prop} {key : String} (h : r.Recognizes q) (set : α → σ)
    (hset : ∀ a k, met (set a) k ↔ met state k ∨ k = key ∧ k ∈ known) :
    (r.map set).Recognizes q ∧
      (r.map set).Yields fun next => ∀ k, met next k ↔ met state k ∨ k = key ∧ k ∈ known :=
  ⟨h.map set, (yields_trivial r).map fun a _ => hset a⟩

/-- One more key was met. -/
theorem met_iff_append {next : σ} {key : String}
    (hseen : ∀ k, met state k ↔ k ∈ seen ∧ k ∈ known)
    (hnext : ∀ k, met next k ↔ met state k ∨ k = key ∧ k ∈ known) :
    ∀ k, met next k ↔ k ∈ seen ++ [key] ∧ k ∈ known := by
  intro k
  rw [hnext, hseen, List.mem_append, List.mem_singleton, or_and_right]

theorem count_append_le_one {key : String} (hseen : ∀ k, met state k ↔ k ∈ seen ∧ k ∈ known)
    (honce : ∀ k ∈ known, seen.count k ≤ 1) (hnew : ¬ met state key) :
    ∀ k ∈ known, (seen ++ [key]).count k ≤ 1 := by
  intro k hk
  rw [List.count_append, List.count_singleton]
  by_cases hkey : key = k
  · subst hkey
    have hnot : key ∉ seen := fun h => hnew ((hseen key).mpr ⟨h, hk⟩)
    simp [List.count_eq_zero_of_not_mem hnot]
  · simpa [hkey] using honce k hk

theorem Follows.exists_fields (h : Follows g known required p met) (seen : List String)
    (hseen : ∀ k, met state k ↔ k ∈ seen ∧ k ∈ known) (honce : ∀ k ∈ known, seen.count k ≤ 1)
    {first : Bool} {s t : List Char} {a : α} (hrun : fieldsOnto g state first s = .ok (a, t)) :
    ∃ fields u, Parts (SpellsField Spells) first fields u ∧
      FitAfter seen known required p fields ∧ s = u ++ '\x7d' :: t := by
  -- `seen` follows the state: a known key is refused exactly if it is among the keys so far.
  fun_induction fieldsOnto g state first s generalizing seen with
  | case3 state first s u hn b hb =>
      cases hrun
      obtain ⟨w, hw, hs⟩ := exists_blank s
      rw [skipSpaces_of_nextKey_close hn] at hs
      refine ⟨[], w, .close hw, ⟨?_, fun key hkey => ?_, by simp⟩, hs⟩
      · simpa using honce
      · have hmet := h.finish.mp ⟨a, hb⟩ key hkey
        simpa using ((hseen key).mp hmet).1
  | case8 state first s s₁ hn key s₂ hk r hfield s₃ hc next rest hr ih =>
      have hnew : ¬ met state key := by
        intro hmet
        obtain ⟨cause, hcause⟩ := h.refused hmet
        rw [hcause] at hfield
        cases hfield
      obtain ⟨r', hr', hrecognizes, hyields⟩ := h.field hnew
      obtain rfl : r' = r := Except.ok.inj (hr'.symm.trans hfield)
      obtain ⟨sep, hsep, rfl⟩ := exists_separator_of_nextKey hn
      obtain ⟨chars, body, hchars, rfl, rfl⟩ := stringBody_eq_ok_iff.mp hk
      obtain ⟨w, hw, hs₂⟩ := exists_blank s₂
      rw [colon_eq_ok_iff.mp hc] at hs₂
      obtain ⟨v, text, hv, hp, htext⟩ := hrecognizes.sound hr
      obtain ⟨w', hw', hs₃⟩ := exists_blank s₃
      rw [htext] at hs₃
      obtain ⟨fields, u, hparts, hfit, rfl⟩ := ih _
        (met_iff_append hseen (hyields _ _ _ hr)) (count_append_le_one hseen honce hnew) hrun
      refine ⟨(_, v) :: fields, _, .cons hsep (.mk hchars hw hw' hv) hparts, ?_, ?_⟩
      · have happend := List.append_cons seen (String.ofList chars) (fields.map Prod.fst)
        constructor
        · rw [List.map_cons, happend]
          exact hfit.once
        · rw [List.map_cons, happend]
          exact hfit.required
        · exact List.forall_mem_cons.mpr ⟨hp, hfit.values⟩
      · rw [hs₂, hs₃]
        simp only [List.append_assoc, List.cons_append]
  | _ => cases hrun

theorem Follows.fieldsOnto_parts (h : Follows g known required p met) (state : σ)
    (seen : List String) (hseen : ∀ k, met state k ↔ k ∈ seen ∧ k ∈ known) {first : Bool}
    {fields : Fields} {u : List Char} (hparts : Parts (SpellsField Spells) first fields u)
    (hfit : FitAfter seen known required p fields) (t : List Char) :
    ∃ a, fieldsOnto g state first (u ++ '\x7d' :: t) = .ok (a, t) := by
  have hends : EndsNumber ('\x7d' :: t) := endsNumber_cons rfl rfl (by decide)
  induction hparts generalizing state seen with
  | close hw =>
      obtain ⟨a, ha⟩ := h.finish.mpr fun key hkey =>
        (hseen key).mpr ⟨by simpa using hfit.required key hkey, h.required_subset hkey⟩
      exact ⟨a, fieldsOnto_close (nextKey_close (skipSpaces_blank_append hw _)) ha⟩
  | @cons first field fields sep text rest hsep hfield hrest ih =>
      cases hfield with
      | @mk chars body w w' text v hchars hw hw' hv =>
          have happend := List.append_cons seen (String.ofList chars) (fields.map Prod.fst)
          have honce := hfit.once
          have hrequired := hfit.required
          rw [List.map_cons, happend] at honce hrequired
          obtain ⟨hp, hvalues⟩ := List.forall_mem_cons.mp hfit.values
          have hnew : ¬ met state (String.ofList chars) := by
            intro hmet
            obtain ⟨hmem, hknown⟩ := (hseen _).mp hmet
            have htwice := honce _ hknown
            have hpos := List.count_pos_iff.mpr hmem
            rw [List.count_append, List.count_append, List.count_singleton_self] at htwice
            omega
          obtain ⟨r, hr, hrecognizes, hyields⟩ := h.field hnew
          obtain ⟨next, hnext⟩ := hrecognizes.complete
            (s := w' ++ (text ++ (rest ++ '\x7d' :: t))) hv hp (endsNumber_parts hrest hends)
            ((skipSpaces_blank_append hw' _).trans (hv.skipSpaces_append _))
          obtain ⟨a, ha⟩ := ih _ _ (met_iff_append hseen (hyields _ _ _ hnext))
            ⟨honce, hrequired, hvalues⟩
          refine ⟨a, ?_⟩
          simp only [List.append_assoc, List.cons_append]
          rw [fieldsOnto_part (nextKey_separator hsep _)
            (stringBody_eq_ok_iff.mpr ⟨chars, body, hchars, rfl, rfl⟩) hr
            (colon_eq_ok_iff.mpr (skipSpaces_blank_append hw _)), hnext]
          exact ha

theorem Follows.recognizes_object (h : Follows g known required p met) (expected : String) :
    (object expected true g).Recognizes fun v =>
      ∃ fields, v = .object fields ∧ Fit known required p fields where
  sound := by
    intro s a t hrun
    simp only [object, spaced, runSpaced] at hrun
    split at hrun
    · cases hrun
    · next c u hc =>
        split at hrun
        · next hbrace =>
            obtain ⟨fields, body, hparts, hfit, rfl⟩ := h.exists_fields []
              (fun k => by simp [h.start k]) (by simp) hrun
            exact ⟨_, _, .object hparts, ⟨fields, rfl, hfit.once, hfit.required, hfit.values⟩,
              by simp [hc, hbrace]⟩
        · cases hrun
  complete := by
    rintro v u s t hv ⟨fields, rfl, hfit⟩ - hs
    cases hv with
    | object hparts =>
        obtain ⟨a, ha⟩ := h.fieldsOnto_parts g.start []
          (fun k => by simp [h.start k]) hparts ⟨hfit.once, hfit.required, hfit.values⟩ t
        rw [List.cons_append, List.append_assoc, List.singleton_append] at hs
        exact ⟨a, by simpa only [object, spaced, runSpaced, hs, if_true] using ha⟩

end

theorem recognizes_object_refused (g : Gather σ α) (expected : String) :
    (object expected false g).Recognizes fun _ => False where
  sound := by
    intro s a t hrun
    simp only [object, spaced, runSpaced] at hrun
    split at hrun
    · cases hrun
    · split at hrun <;> cases hrun
  complete := fun _ h => h.elim

end Reader

end FlexFold.Json
