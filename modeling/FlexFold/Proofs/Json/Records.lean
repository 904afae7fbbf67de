import FlexFold.Json.Record
import FlexFold.Proofs.FirstSeen
import FlexFold.Proofs.Json.Recover

/-!
Typed data is recovered from what was printed of it: numbers that fit a machine word, spelled
values, maps in first-seen order and records with fixed fields.
-/

namespace FlexFold.Json

open Decimal (isDigit maxWord)

variable {α σ : Type} {layout : Layout} {budget : Nat}

namespace Reader

/-! ### Scalars -/

theorem recovers_natural {n : Nat} (hn : n ≤ maxWord) (kind : String) :
    (natural kind).Recovers layout budget (.number (.integer n)) n := by
  intro depth s tail htail hs
  have hrange : InRange n := ⟨by omega, by exact_mod_cast hn⟩
  have hnumber := number_text hrange htail
  obtain ⟨c, t, ht, hc⟩ := Number.text_head (.integer n)
  rw [Value.printBefore, ht, List.cons_append] at hs
  rw [ht, List.cons_append] at hnumber
  refine .of_ok (Nat.zero_le _) ?_
  simp [natural, spaced, runSpaced, hs, hc, naturalOf, hnumber]

theorem recovers_spelled {f : String → Except Cause α} {text : String} {a : α}
    (h : f text = .ok a) (expected : String) :
    (spelled expected f).Recovers layout budget (.string text) a := by
  intro depth s tail _ hs
  rw [Value.printBefore, quoteBefore] at hs
  refine .of_ok (Nat.zero_le _) ?_
  simp [spelled, spaced, runSpaced, hs, stringBody_foldr, h]

/-! ### Maps -/

/-- How the entries of a map are gathered. -/
def mapGather (item : Reader α) : Gather (FirstSeen String α) (FirstSeen String α) where
  start := .empty
  field map key := .ok (item.map (map.insert key))
  finish := .ok

/-- The entries that were met stand in front of those that are still to come. -/
theorem gathers_map {item : Reader α} {f : α → Value} {entries : List (String × α)}
    (h : ∀ entry ∈ entries, item.Recovers layout budget (f entry.2) entry.2)
    {met last : FirstSeen String α} (hlast : last.entries = met.entries ++ entries) :
    Gathers layout budget (mapGather item) met (entries.map fun entry => (entry.1, f entry.2))
      last := by
  induction entries generalizing met with
  | nil =>
      rw [List.append_nil] at hlast
      rw [FirstSeen.eq_of_entries_eq hlast]
      exact .nil _
  | cons entry entries ih =>
      obtain ⟨key, value⟩ := entry
      obtain ⟨hvalue, hrest⟩ := List.forall_mem_cons.mp h
      have hnew : key ∉ met.keys := by
        have hnodup := last.nodup
        rw [hlast, List.map_append, List.nodup_append] at hnodup
        exact fun hmem => hnodup.2.2 key hmem key (by simp) rfl
      refine .cons rfl (hvalue.map (met.insert key)) (ih hrest ?_)
      rw [FirstSeen.entries_insert hnew, hlast, List.append_assoc, List.singleton_append]

theorem recovers_mapOf {item : Reader α} {f : α → Value} {map : FirstSeen String α}
    (h : ∀ entry ∈ map.entries, item.Recovers layout budget (f entry.2) entry.2) :
    (mapOf item).Recovers layout (budget + 1)
      (.object (map.entries.map fun entry => (entry.1, f entry.2))) map := by
  have hstart : map.entries = (mapGather item).start.entries ++ map.entries := rfl
  exact recovers_object (gathers_map h hstart) rfl "a map"

/-! ### Documents -/

/-- A document is read back if the reader may open more containers than it holds. -/
theorem Recovers.parse_eq_ok {r : Reader α} {value : Value} {more : Nat} {a : α}
    (h : r.Recovers layout (value.nesting + more) value a) :
    r.parse (value.text layout) = .ok a := by
  have hparse := h.parse
  rwa [if_pos (Nat.le_add_right _ _)] at hparse

end Reader

/-! ### Records -/

namespace Record

/-- How the fields of a record are gathered. -/
def gather (r : Record σ α) : Reader.Gather σ α where
  start := r.start
  field := r.fieldReader
  finish := r.finishFields

theorem recovers {r : Record σ α} {fields : Fields} {last : σ} {a : α}
    (h : Reader.Gathers layout budget r.gather r.start fields last) (ha : r.finish last = .ok a) :
    r.reader.Recovers layout (budget + 1) (.object fields) a := by
  intro depth s tail _ hs
  obtain ⟨t, ht⟩ := printBefore_object layout depth fields tail
  have hrun : r.reader.run s = Reader.fieldsOnto r.gather r.gather.start true t := by
    simp [reader, Reader.spaced, Reader.runSpaced, hs, ht, gather]
  have hfinish : r.gather.finish last = .ok a := by
    simp [gather, finishFields, ha]
  rw [hrun]
  exact Reader.reads_fieldsOnto h hfinish ht

end Record

end FlexFold.Json
