import FlexFold.Proofs.Json.Printed
import FlexFold.Proofs.Json.Shape
import FlexFold.Proofs.Json.Strings

/-!
Readers recover what was printed. Text that nests too deep for a reader is refused, and for no
other reason.
-/

namespace FlexFold.Json

open Decimal (isDigit)

/-! ### Steps and readers -/

variable {α β σ : Type}

/-- A step that takes `a` off the front if what it reads fits, and else finds too many
containers in one another. -/
structure Reads (step : Step α) (fits : Prop) (a : α) (tail : List Char) : Prop where
  ok : fits → step = .ok (a, tail)
  error : ¬ fits → ∃ left, step = .error ⟨.nestingLimit, left⟩

theorem Reads.of_ok {step : Step α} {fits : Prop} {a : α} {tail : List Char} (hfits : fits)
    (h : step = .ok (a, tail)) : Reads step fits a tail :=
  ⟨fun _ => h, fun hnot => (hnot hfits).elim⟩

theorem Reads.of_refused {step : Step α} {fits : Prop} {s tail : List Char} (hfits : ¬ fits)
    (h : step = .error (.next .nestingLimit s)) (a : α) : Reads step fits a tail :=
  ⟨fun hfits' => (hfits hfits').elim, fun _ => ⟨Text.byteLength s - 1, h⟩⟩

theorem Reads.congr {step : Step α} {fits fits' : Prop} {a : α} {tail : List Char}
    (h : Reads step fits a tail) (hiff : fits ↔ fits') : Reads step fits' a tail :=
  ⟨fun hfits => h.ok (hiff.mpr hfits), fun hnot => h.error (mt hiff.mp hnot)⟩

/-- One step after the other: the first that does not fit decides. -/
theorem Reads.bind {first : Step α} {fits fits' : Prop} {a : α} {b : β} {s tail : List Char}
    (hfirst : Reads first fits a s) (next : α → List Char → Step β)
    (hnext : Reads (next a s) fits' b tail) :
    Reads (match first with | .error e => .error e | .ok (a, s) => next a s) (fits ∧ fits') b
      tail := by
  constructor
  · rintro ⟨hfits, hfits'⟩
    rw [hfirst.ok hfits]
    exact hnext.ok hfits'
  · intro hnot
    by_cases hfits : fits
    · rw [hfirst.ok hfits]
      exact hnext.error fun hfits' => hnot ⟨hfits, hfits'⟩
    · obtain ⟨left, h⟩ := hfirst.error hfits
      exact ⟨left, by rw [h]⟩

theorem Reads.map {step : Step α} {fits : Prop} {a : α} {tail : List Char} (f : α → β)
    (h : Reads step fits a tail) :
    Reads (match step with | .error e => .error e | .ok (a, t) => .ok (f a, t)) fits (f a)
      tail := by
  have hnext : Reads (.ok (f a, tail)) True (f a) tail := .of_ok trivial rfl
  exact (h.bind (fun a t => .ok (f a, t)) hnext).congr (by simp)

namespace Reader

/-- A reader takes the printed value for `a`, if its containers fit in the budget. -/
def Recovers (layout : Layout) (budget : Nat) (r : Reader α) (value : Value) (a : α) : Prop :=
  ∀ depth s tail, EndsNumber tail → skipSpaces s = value.printBefore layout depth tail →
    Reads (r.run s) (value.nesting ≤ budget) a tail

variable {layout : Layout} {budget : Nat}

theorem Recovers.map {r : Reader α} {value : Value} {a : α} (f : α → β)
    (h : r.Recovers layout budget value a) : (r.map f).Recovers layout budget value (f a) :=
  fun depth s tail htail hs => (h depth s tail htail hs).map f

theorem recovers_string (s : String) : string.Recovers layout budget (.string s) s := by
  intro depth t tail _ ht
  rw [Value.printBefore, quoteBefore] at ht
  refine .of_ok (Nat.zero_le _) ?_
  simp only [string, spaced, runSpaced, ht, if_true]
  exact stringBody_foldr s tail

/-- The text of a value that is not `null` is left to the reader itself. -/
theorem Recovers.nullable {r : Reader α} {value : Value} {a : α}
    (h : r.Recovers layout budget value a) (hvalue : value ≠ .null) :
    r.nullable.Recovers layout budget value (some a) := by
  intro depth s tail htail hs
  have hrun : r.nullable.run s = match r.run (skipSpaces s) with
      | .error e => .error e
      | .ok (a, t) => .ok (some a, t) := by
    simp only [Reader.nullable]
    split
    · next t ht => exact (printBefore_ne_null hvalue layout depth tail t (hs ▸ ht)).elim
    · rfl
  rw [hrun]
  exact (h depth _ tail htail ((skipSpaces_skipSpaces s).trans hs)).map some

/-! ### Arrays -/

theorem nextItem_close {first : Bool} {s t : List Char} (h : skipSpaces s = ']' :: t) :
    nextItem first s = .ok (.close t) := by
  simp [nextItem, h]

theorem nextItem_first (depth : Nat) (value : Value) (rest : List Char) :
    nextItem true (layout.lineBefore depth (value.printBefore layout depth rest)) =
      .ok (.part (value.printBefore layout depth rest)) := by
  have hskip := skipSpaces_printBefore layout depth value rest
  obtain ⟨c, t, ht, -, hc⟩ := startsItem_printBefore layout depth value rest
  rw [ht] at hskip ⊢
  simp [nextItem, skipSpaces_lineBefore, hskip, hc]

theorem nextItem_comma (depth : Nat) (value : Value) (rest : List Char) :
    nextItem false (',' :: layout.lineBefore depth (value.printBefore layout depth rest)) =
      .ok (.part (value.printBefore layout depth rest)) := by
  have hskip := skipSpaces_printBefore layout depth value rest
  obtain ⟨c, t, ht, -, hc⟩ := startsItem_printBefore layout depth value rest
  have hcomma : ∀ u, skipSpaces (',' :: u) = ',' :: u := fun _ => rfl
  rw [ht] at hskip ⊢
  simp [nextItem, hcomma, skipSpaces_lineBefore, hskip, hc]

theorem itemsOnto_close {item : Reader α} {before : List α} {first : Bool} {s t : List Char}
    (h : nextItem first s = .ok (.close t)) :
    itemsOnto item before first s = .ok (before.reverse, t) := by
  rw [itemsOnto]
  split <;> simp_all

theorem itemsOnto_part {item : Reader α} {before : List α} {first : Bool} {s u : List Char}
    (h : nextItem first s = .ok (.part u)) :
    itemsOnto item before first s = match item.run u with
      | .error e => .error e
      | .ok (a, t) => itemsOnto item (a :: before) false t := by
  rw [itemsOnto]
  split
  · simp_all
  · simp_all
  · next v hv =>
      obtain rfl : u = v := by simpa [h] using hv
      split <;> simp_all

/-- One printed item, and what is read after it. -/
theorem reads_itemsOnto_item {item : Reader α} {value : Value} {a : α}
    (ha : item.Recovers layout budget value a) {before as : List α} {first : Bool} {depth : Nat}
    {s rest tail : List Char} {fits : Prop} (hends : EndsNumber rest)
    (hs : nextItem first s = .ok (.part (value.printBefore layout depth rest)))
    (hrest : Reads (itemsOnto item (a :: before) false rest) fits as tail) :
    Reads (itemsOnto item before first s) (value.nesting ≤ budget ∧ fits) as tail := by
  rw [itemsOnto_part hs]
  have hread := ha depth _ rest hends (skipSpaces_printBefore ..)
  exact hread.bind (fun a t => itemsOnto item (a :: before) false t) hrest

theorem reads_itemsOnto_itemsBefore {item : Reader α} {f : α → Value} {as : List α}
    (h : ∀ a ∈ as, item.Recovers layout budget (f a) a) (before : List α) (depth : Nat)
    (tail : List Char) :
    Reads (itemsOnto item before false (Value.itemsBefore layout depth (as.map f) tail))
      (∀ a ∈ as, (f a).nesting ≤ budget) (before.reverse ++ as) tail := by
  -- The items that were read stand back to front in `before`.
  induction as generalizing before with
  | nil =>
      rw [List.append_nil]
      exact .of_ok (by simp)
        (itemsOnto_close (nextItem_close (skipSpaces_lineBefore layout depth _)))
  | cons a as ih =>
      obtain ⟨ha, has⟩ := List.forall_mem_cons.mp h
      have hrest := ih has (a :: before)
      rw [List.reverse_cons, List.append_assoc] at hrest
      rw [List.map_cons, Value.itemsBefore]
      exact (reads_itemsOnto_item ha (endsNumber_itemsBefore ..) (nextItem_comma ..) hrest).congr
        (by rw [List.forall_mem_cons])

/-- What follows the opening bracket of an array. -/
theorem reads_itemsOnto {item : Reader α} {f : α → Value} {as : List α}
    (h : ∀ a ∈ as, item.Recovers layout budget (f a) a) {depth : Nat} {t tail : List Char}
    (ht : (Value.array (as.map f)).printBefore layout depth tail = '[' :: t) :
    Reads (itemsOnto item [] true t) ((Value.array (as.map f)).nesting ≤ budget + 1) as tail := by
  have hiff : (∀ a ∈ as, (f a).nesting ≤ budget) ↔
      (Value.array (as.map f)).nesting ≤ budget + 1 := by
    simp [Value.nesting_array_le_iff]
  refine Reads.congr ?_ hiff
  cases as with
  | nil =>
      rw [List.map_nil, Value.printBefore] at ht
      obtain rfl := (List.cons.inj ht).2
      exact .of_ok (by simp) (itemsOnto_close rfl)
  | cons a as =>
      rw [List.map_cons, Value.printBefore] at ht
      obtain rfl := (List.cons.inj ht).2
      obtain ⟨ha, has⟩ := List.forall_mem_cons.mp h
      have hrest := reads_itemsOnto_itemsBefore has [a] depth tail
      exact (reads_itemsOnto_item ha (endsNumber_itemsBefore ..) (nextItem_first ..) hrest).congr
        (by rw [List.forall_mem_cons])

theorem recovers_array {item : Reader α} {f : α → Value} {as : List α}
    (h : ∀ a ∈ as, item.Recovers layout budget (f a) a) :
    (array (some item)).Recovers layout (budget + 1) (.array (as.map f)) as := by
  intro depth s tail _ hs
  obtain ⟨t, ht⟩ := printBefore_array layout depth (as.map f) tail
  have hrun : (array (some item)).run s = itemsOnto item [] true t := by
    simp only [array, spaced, runSpaced, hs, ht, if_true]
  rw [hrun]
  exact reads_itemsOnto h ht

theorem recovers_array_none (values : List Value) (as : List α) :
    (array (none : Option (Reader α))).Recovers layout 0 (.array values) as := by
  intro depth s tail _ hs
  obtain ⟨t, ht⟩ := printBefore_array layout depth values tail
  refine .of_refused (s := '[' :: t) (by simp [Value.nesting]) ?_ as
  simp only [array, spaced, runSpaced, hs, ht, if_true]

/-! ### Objects -/

theorem nextKey_close {first : Bool} {s t : List Char} (h : skipSpaces s = '\x7d' :: t) :
    nextKey first s = .ok (.close t) := by
  simp [nextKey, h]

theorem nextKey_first {s t : List Char} (h : skipSpaces s = '"' :: t) :
    nextKey true s = .ok (.part t) := by
  simp [nextKey, h]

theorem nextKey_comma {s t : List Char} (h : skipSpaces s = '"' :: t) :
    nextKey false (',' :: s) = .ok (.part t) := by
  have hcomma : skipSpaces (',' :: s) = ',' :: s := rfl
  simp [nextKey, hcomma, h]

theorem fieldsOnto_close {g : Gather σ α} {state : σ} {first : Bool} {s t : List Char} {a : α}
    (h : nextKey first s = .ok (.close t)) (ha : g.finish state = .ok a) :
    fieldsOnto g state first s = .ok (a, t) := by
  rw [fieldsOnto]
  split <;> simp_all

theorem fieldsOnto_part {g : Gather σ α} {state : σ} {first : Bool} {s s₁ s₂ s₃ : List Char}
    {key : String} {r : Reader σ} (h : nextKey first s = .ok (.part s₁))
    (hkey : stringBody s₁ = .ok (key, s₂)) (hfield : g.field state key = .ok r)
    (hcolon : colon s₂ = .ok s₃) :
    fieldsOnto g state first s = match r.run s₃ with
      | .error e => .error e
      | .ok (state, t) => fieldsOnto g state false t := by
  rw [fieldsOnto]
  split
  · simp_all
  · simp_all
  · next u hu =>
      obtain rfl : s₁ = u := by simpa [h] using hu
      split
      · simp_all
      · next key' u₂ hu₂ =>
          obtain ⟨rfl, rfl⟩ : key = key' ∧ s₂ = u₂ := by simpa [hkey] using hu₂
          simp only [hfield]
          split
          · simp_all
          · next u₃ hu₃ =>
              obtain rfl : s₃ = u₃ := by simpa [hcolon] using hu₃
              split <;> simp_all

theorem colon_colonBefore (layout : Layout) (s : List Char) :
    ∃ t, colon (layout.colonBefore s) = .ok t ∧ skipSpaces t = skipSpaces s := by
  obtain ⟨t, ht, hskip⟩ := colonBefore_eq layout s
  have hcolon : skipSpaces (':' :: t) = ':' :: t := rfl
  exact ⟨t, by simp [colon, ht, hcolon], hskip⟩

/-- Reading the fields one after the other takes the state to `last`. -/
inductive Gathers (layout : Layout) (budget : Nat) (g : Gather σ α) : σ → Fields → σ → Prop where
  | nil (state : σ) : Gathers layout budget g state [] state
  | cons {state next last : σ} {key : String} {value : Value} {fields : Fields} {r : Reader σ}
      (hfield : g.field state key = .ok r) (hvalue : r.Recovers layout budget value next)
      (hrest : Gathers layout budget g next fields last) :
      Gathers layout budget g state ((key, value) :: fields) last

theorem Gathers.append {g : Gather σ α} {state next last : σ} {fields more : Fields}
    (h : Gathers layout budget g state fields next)
    (hmore : Gathers layout budget g next more last) :
    Gathers layout budget g state (fields ++ more) last := by
  induction h with
  | nil => exact hmore
  | cons hfield hvalue _ ih => exact .cons hfield hvalue (ih hmore)

/-- A field that is left out leaves its place in the state empty. -/
theorem gathers_optionalField {g : Gather σ α} {key : String} {f : β → Value}
    {r : Reader (Option β)} (set : Option (Option β) → σ)
    (hfield : g.field (set none) key = .ok (r.map fun v => set (some v))) (found : Option β)
    (hvalue : ∀ b ∈ found, r.Recovers layout budget (f b) (some b)) :
    Gathers layout budget g (set none) (optionalField key f found) (set (found.map some)) := by
  cases found with
  | none => exact .nil _
  | some b => exact .cons hfield ((hvalue b rfl).map fun v => set (some v)) (.nil _)

/-- One printed field, and what is read after it. -/
theorem reads_fieldsOnto_field {g : Gather σ α} {state next : σ} {key : String} {value : Value}
    {r : Reader σ} (hfield : g.field state key = .ok r)
    (hvalue : r.Recovers layout budget value next) {first : Bool} {depth : Nat}
    {s rest tail : List Char} {a : α} {fits : Prop} (hends : EndsNumber rest)
    (hs : nextKey first s = .ok (.part (key.toList.foldr escapeBefore
      ('"' :: layout.colonBefore (value.printBefore layout depth rest)))))
    (hrest : Reads (fieldsOnto g next false rest) fits a tail) :
    Reads (fieldsOnto g state first s) (value.nesting ≤ budget ∧ fits) a tail := by
  obtain ⟨t, hcolon, hskip⟩ := colon_colonBefore layout (value.printBefore layout depth rest)
  rw [fieldsOnto_part hs (stringBody_foldr key _) hfield hcolon]
  have hread := hvalue depth t rest hends (hskip.trans (skipSpaces_printBefore ..))
  exact hread.bind (fun state t => fieldsOnto g state false t) hrest

theorem reads_fieldsOnto_fieldsBefore {g : Gather σ α} {state last : σ} {fields : Fields} {a : α}
    (h : Gathers layout budget g state fields last) (ha : g.finish last = .ok a) (depth : Nat)
    (tail : List Char) :
    Reads (fieldsOnto g state false (Value.fieldsBefore layout depth fields tail))
      (∀ field ∈ fields, field.2.nesting ≤ budget) a tail := by
  induction h with
  | nil =>
      exact .of_ok (by simp)
        (fieldsOnto_close (nextKey_close (skipSpaces_lineBefore layout depth _)) ha)
  | cons hfield hvalue _ ih =>
      rw [Value.fieldsBefore]
      exact (reads_fieldsOnto_field hfield hvalue (endsNumber_fieldsBefore ..)
        (nextKey_comma (skipSpaces_lineBefore ..)) (ih ha)).congr (by rw [List.forall_mem_cons])

/-- What follows the opening brace of an object. -/
theorem reads_fieldsOnto {g : Gather σ α} {last : σ} {fields : Fields} {a : α}
    (h : Gathers layout budget g g.start fields last) (ha : g.finish last = .ok a)
    {depth : Nat} {t tail : List Char}
    (ht : (Value.object fields).printBefore layout depth tail = '\x7b' :: t) :
    Reads (fieldsOnto g g.start true t) ((Value.object fields).nesting ≤ budget + 1) a tail := by
  refine Reads.congr ?_ Value.nesting_object_le_iff.symm
  generalize g.start = state at h ⊢
  cases h with
  | nil =>
      rw [Value.printBefore] at ht
      obtain rfl := (List.cons.inj ht).2
      exact .of_ok (by simp) (fieldsOnto_close rfl ha)
  | cons hfield hvalue hrest =>
      rw [Value.printBefore] at ht
      obtain rfl := (List.cons.inj ht).2
      exact (reads_fieldsOnto_field hfield hvalue (endsNumber_fieldsBefore ..)
        (nextKey_first (skipSpaces_lineBefore ..))
        (reads_fieldsOnto_fieldsBefore hrest ha depth tail)).congr (by rw [List.forall_mem_cons])

theorem recovers_object {g : Gather σ α} {last : σ} {fields : Fields} {a : α}
    (h : Gathers layout budget g g.start fields last) (ha : g.finish last = .ok a)
    (expected : String) :
    (object expected true g).Recovers layout (budget + 1) (.object fields) a := by
  intro depth s tail _ hs
  obtain ⟨t, ht⟩ := printBefore_object layout depth fields tail
  have hrun : (object expected true g).run s = fieldsOnto g g.start true t := by
    simp only [object, spaced, runSpaced, hs, ht, if_true]
  rw [hrun]
  exact reads_fieldsOnto h ha ht

theorem recovers_object_refused (g : Gather σ α) (expected : String) (fields : Fields) (a : α) :
    (object expected false g).Recovers layout 0 (.object fields) a := by
  intro depth s tail _ hs
  obtain ⟨t, ht⟩ := printBefore_object layout depth fields tail
  refine .of_refused (s := '\x7b' :: t) (by simp [Value.nesting]) ?_ a
  simp only [object, spaced, runSpaced, hs, ht, if_true, Bool.false_eq_true, if_false]

/-- Fields that are only kept are gathered in their order, if that is the order of their keys. -/
theorem gathers_kept_append {g : Gather σ α} {other : Reader Value} (keep : Fields → σ)
    {fields : Fields}
    (hfield : ∀ field ∈ fields, ∀ kept, g.field (keep kept) field.1 =
      .ok (other.map fun v => keep (Fields.insert field.1 v kept)))
    (hvalue : ∀ field ∈ fields, other.Recovers layout budget field.2 field.2)
    {kept : Fields} (hsorted : Fields.IsSorted (kept ++ fields)) :
    Gathers layout budget g (keep kept) fields (keep (kept ++ fields)) := by
  induction fields generalizing kept with
  | nil =>
      rw [List.append_nil]
      exact .nil _
  | cons field fields ih =>
      obtain ⟨key, value⟩ := field
      have hlast : ∀ other ∈ kept, other.1 < key := by
        intro other hmem
        rw [Fields.IsSorted, List.map_append, List.pairwise_append] at hsorted
        exact hsorted.2.2 _ (List.mem_map_of_mem hmem) _ List.mem_cons_self
      have hrest : Gathers layout budget g (keep (kept ++ [(key, value)])) fields
          (keep (kept ++ (key, value) :: fields)) := by
        rw [List.append_cons kept (key, value) fields] at hsorted ⊢
        exact ih (fun field hmem => hfield field (List.mem_cons_of_mem _ hmem))
          (fun field hmem => hvalue field (List.mem_cons_of_mem _ hmem)) hsorted
      rw [← Fields.insert_eq_append hlast] at hrest
      exact .cons (hfield _ List.mem_cons_self kept)
        ((hvalue _ List.mem_cons_self).map fun v => keep (Fields.insert key v kept)) hrest

theorem gathers_kept {g : Gather σ α} {other : Reader Value} (keep : Fields → σ)
    {fields : Fields}
    (hfield : ∀ field ∈ fields, ∀ kept, g.field (keep kept) field.1 =
      .ok (other.map fun v => keep (Fields.insert field.1 v kept)))
    (hvalue : ∀ field ∈ fields, other.Recovers layout budget field.2 field.2)
    (hsorted : Fields.IsSorted fields) : Gathers layout budget g (keep []) fields (keep fields) :=
  gathers_kept_append keep hfield hvalue hsorted

end Reader

/-! ### Values and documents -/

open Reader

variable {layout : Layout}

theorem Value.reader_eq (budget : Nat) : ∃ inner, Value.reader budget = Value.readerWith inner := by
  cases budget with
  | zero => exact ⟨none, rfl⟩
  | succ budget => exact ⟨some (Value.reader budget), rfl⟩

/-- A value that is no container needs no budget. -/
theorem Value.recovers_of_readerWith {value : Value} (hflat : value.nesting = 0)
    (h : ∀ inner depth s tail, EndsNumber tail →
      skipSpaces s = value.printBefore layout depth tail →
      (Value.readerWith inner).run s = .ok (value, tail)) (budget : Nat) :
    (Value.reader budget).Recovers layout budget value value := by
  intro depth s tail htail hs
  obtain ⟨inner, hinner⟩ := Value.reader_eq budget
  rw [hinner]
  exact .of_ok (by omega) (h inner depth s tail htail hs)

theorem readerWith_integer {i : Int} (hi : InRange i) (inner : Option (Reader Value))
    {s tail : List Char} (htail : EndsNumber tail)
    (hs : skipSpaces s = (Number.integer i).text ++ tail) :
    (Value.readerWith inner).run s = .ok (.number (.integer i), tail) := by
  have hnumber := number_text hi htail
  obtain ⟨c, t, ht, hc⟩ := Number.text_head (.integer i)
  rw [ht, List.cons_append] at hs hnumber
  have hne : c ≠ 'n' ∧ c ≠ 't' ∧ c ≠ 'f' := by
    refine ⟨?_, ?_, ?_⟩ <;> exact ne_of_isDigit hc (by decide)
  simp [Value.readerWith, spaced, runSpaced, hs, hne, hc, hnumber]

theorem readerWith_string (text : String) (inner : Option (Reader Value)) {s tail : List Char}
    (hs : skipSpaces s = quoteBefore text tail) :
    (Value.readerWith inner).run s = .ok (.string text, tail) := by
  rw [quoteBefore] at hs
  have hquote : isDigit '"' = false := rfl
  simp [Value.readerWith, spaced, runSpaced, hs, hquote, stringBody_foldr]

theorem Value.recovers_array {items : List Value}
    (h : ∀ budget, ∀ item ∈ items, (Value.reader budget).Recovers layout budget item item)
    (budget : Nat) :
    (Value.reader budget).Recovers layout budget (.array items) (.array items) := by
  intro depth s tail _ hs
  obtain ⟨t, ht⟩ := printBefore_array layout depth items tail
  have hopen : isDigit '[' = false := rfl
  rw [ht] at hs
  cases budget with
  | zero =>
      refine .of_refused (s := '[' :: t) (by simp [Value.nesting]) ?_ _
      simp [Value.reader, Value.readerWith, spaced, runSpaced, hs, hopen]
  | succ budget =>
      have hread := reads_itemsOnto (f := id) (h budget) (by rw [List.map_id]; exact ht)
      rw [List.map_id] at hread
      constructor
      · intro hfits
        simp [Value.reader, Value.readerWith, spaced, runSpaced, hs, hopen, hread.ok hfits]
      · intro hnot
        obtain ⟨left, hleft⟩ := hread.error hnot
        refine ⟨left, ?_⟩
        simp [Value.reader, Value.readerWith, spaced, runSpaced, hs, hopen, hleft]

theorem Value.recovers_object {fields : Fields} (hsorted : Fields.IsSorted fields)
    (h : ∀ budget, ∀ field ∈ fields, (Value.reader budget).Recovers layout budget field.2 field.2)
    (budget : Nat) :
    (Value.reader budget).Recovers layout budget (.object fields) (.object fields) := by
  intro depth s tail _ hs
  obtain ⟨t, ht⟩ := printBefore_object layout depth fields tail
  have hopen : isDigit '\x7b' = false := rfl
  rw [ht] at hs
  cases budget with
  | zero =>
      refine .of_refused (s := '\x7b' :: t) (by simp [Value.nesting]) ?_ _
      simp [Value.reader, Value.readerWith, spaced, runSpaced, hs, hopen]
  | succ budget =>
      have hgathers : Gathers layout budget (Fields.gather (Value.reader budget)) [] fields
          fields := gathers_kept id (fun _ _ _ => rfl) (h budget) hsorted
      have hrun : (Value.reader (budget + 1)).run s =
          fieldsOnto (Fields.gather (Value.reader budget)) [] true t := by
        simp [Value.reader, Value.readerWith, Fields.gather, spaced, runSpaced, hs, hopen]
      rw [hrun]
      exact reads_fieldsOnto hgathers rfl ht

/-- A value that was read is recovered. Only a double may come back as another one. -/
theorem Value.IsRead.recovers {value : Value} (hread : value.IsRead)
    (hexact : ∀ x, ¬ value.Holds (.double x)) (budget : Nat) :
    (Value.reader budget).Recovers layout budget value value := by
  -- A container leaves less of the budget to its parts, so the budget cannot stay fixed.
  induction hread generalizing budget with
  | null =>
      refine Value.recovers_of_readerWith rfl (fun inner depth s tail _ hs => ?_) budget
      rw [Value.printBefore] at hs
      simp [Value.readerWith, spaced, runSpaced, hs, literalAs, literal]
  | bool b =>
      refine Value.recovers_of_readerWith rfl (fun inner depth s tail _ hs => ?_) budget
      cases b <;> rw [Value.printBefore] at hs <;>
        simp [Value.readerWith, spaced, runSpaced, hs, literalAs, literal]
  | integer hi =>
      refine Value.recovers_of_readerWith rfl (fun inner depth s tail htail hs => ?_) budget
      rw [Value.printBefore] at hs
      exact readerWith_integer hi inner htail hs
  | double x => exact (hexact x .self).elim
  | string text =>
      refine Value.recovers_of_readerWith rfl (fun inner depth s tail _ hs => ?_) budget
      rw [Value.printBefore] at hs
      exact readerWith_string text inner hs
  | array _ ih =>
      exact Value.recovers_array
        (fun budget item hmem => ih item hmem (fun x h => hexact x (.item hmem h)) budget) budget
  | object hsorted _ ih =>
      exact Value.recovers_object hsorted
        (fun budget field hmem => ih field hmem (fun x h => hexact x (.field hmem h)) budget)
        budget

/-- A printed document is read back, or refused because its containers nest too deep. -/
theorem Reader.Recovers.parse {α : Type} {budget : Nat} {r : Reader α} {value : Value} {a : α}
    (h : r.Recovers layout budget value a) :
    if value.nesting ≤ budget then r.parse (value.text layout) = .ok a
    else ∃ position, r.parse (value.text layout) = .error ⟨.nestingLimit, position⟩ := by
  have hread := h 0 (value.text layout).toList [] endsNumber_nil
    (by rw [Value.text, String.toList_ofList, skipSpaces_printBefore])
  split
  · next hfits =>
      rw [Reader.parse, hread.ok hfits]
      rfl
  · next hnot =>
      obtain ⟨left, hleft⟩ := hread.error hnot
      exact ⟨_, by rw [Reader.parse, hleft]; rfl⟩

end FlexFold.Json
