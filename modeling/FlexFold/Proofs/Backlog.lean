import FlexFold.Proofs.Deferred
import FlexFold.Proofs.Directive

/-!
What a backlog comes to that was filled by directives. It depends on which changes wait and on the
tokens of the list, but neither on the order in which the changes were registered nor on how often
each of them was.
-/

namespace FlexFold

/-- A change that some attribute makes wait. -/
def Deferred.IsRegistered (change : Deferred) : Prop :=
  ∃ a, change ∈ (Directive.ofAttribute a).effect.deferred

/-- An inline layout and a stretched axis register the two changes that there are. -/
theorem Deferred.isRegistered_iff {change : Deferred} :
    change.IsRegistered ↔ change = .inline ∨ change = .stretch := by
  constructor
  · rintro ⟨a, ha⟩
    exact eq_of_mem_deferred ha
  · rintro (rfl | rfl)
    · exact ⟨{ name := "fxLayout", value := some "row inline" }, by decide⟩
    · exact ⟨{ name := "fxLayoutAlign", value := some "stretch" }, by decide⟩

namespace Backlog

variable {backlog other : Backlog}

/-- What is carried out in a class list is the outcome of the changes on its tokens. -/
theorem tokens_flush (h : ∀ change ∈ backlog.pending, change.IsRegistered) (list : ClassList) :
    (backlog.flush list).1.tokens = Deferred.outcome backlog.pending list.tokens := by
  have happend : ∀ change ∈ backlog.pending, change.AppendsWord := by
    intro change hchange
    obtain ⟨a, ha⟩ := h change hchange
    exact (Directive.isClean_effect _).deferred change ha
  have htwo : ∀ change ∈ backlog.pending, change = .inline ∨ change = .stretch :=
    fun change hchange => Deferred.isRegistered_iff.mp (h change hchange)
  rw [flush, Deferred.tokens_foldl_apply happend, Deferred.foldl_on htwo list.nodup]

example :
    (Backlog.flush ⟨[.stretch, .inline, .stretch]⟩
      (ClassList.parse "inline-flex card flex flex-col")).1.tokens =
      ["inline-flex", "card", "flex-col", "max-h-full"] := by
  decide +kernel

/-- Nothing waits after a backlog was carried out, and any other backlog of the same changes, in
another order or with repetitions, leaves the same tokens in the same order. -/
theorem flush_congr (hregistered : ∀ change ∈ backlog.pending, change.IsRegistered)
    (hsame : ∀ change, change ∈ other.pending ↔ change ∈ backlog.pending) (list : ClassList) :
    (backlog.flush list).2.pending = [] ∧
      (other.flush list).1.tokens = (backlog.flush list).1.tokens := by
  have hother : ∀ change ∈ other.pending, change.IsRegistered :=
    fun change hchange => hregistered change ((hsame change).mp hchange)
  refine ⟨rfl, ?_⟩
  rw [tokens_flush hother, tokens_flush hregistered, Deferred.outcome_congr hsame]

theorem flush_congr_repeated :
    (∀ change ∈ [Deferred.inline, .stretch], change.IsRegistered) ∧
      (∀ change, change ∈ [Deferred.stretch, .inline, .stretch] ↔
        change ∈ [Deferred.inline, .stretch]) ∧
      (Backlog.flush ⟨[.stretch, .inline, .stretch]⟩
          (ClassList.parse "inline-flex card flex flex-col")).1.tokens =
        (Backlog.flush ⟨[.inline, .stretch]⟩
          (ClassList.parse "inline-flex card flex flex-col")).1.tokens := by
  have hregistered : ∀ change ∈ [Deferred.inline, .stretch], change.IsRegistered := by
    simp [Deferred.isRegistered_iff]
  have hsame : ∀ change, change ∈ [Deferred.stretch, .inline, .stretch] ↔
      change ∈ [Deferred.inline, .stretch] := by
    intro change
    simp only [List.mem_cons, List.not_mem_nil, or_false]
    grind only
  have hflush := @flush_congr ⟨[.inline, .stretch]⟩ ⟨[.stretch, .inline, .stretch]⟩ hregistered
    hsame (ClassList.parse "inline-flex card flex flex-col")
  exact ⟨hregistered, hsame, hflush.2⟩

end Backlog

end FlexFold
