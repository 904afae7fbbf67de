import FlexFold.CommandLine.Words
import FlexFold.Proofs.Attempt

/-!
What a grammar remembers of the words that it has read. Whether an option or a flag was given can
be told from each word on its own, and reading the words one after the other finds the same,
although an option is recorded only when the next one begins.
-/

namespace FlexFold.CommandLine.Grammar

variable {ω φ σ : Type} (g : Grammar ω φ σ)

/-! ### What a word stands for -/

/-- The options and flags among the letters of a word. What follows an option is its value. -/
def shortSwitches : List Char → List (Switch ω φ)
  | [] => []
  | c :: rest =>
      match g.short? c with
      | some (.flag f) => .flag f :: shortSwitches rest
      | some switch => [switch]
      | none => []

/-- The options and flags that a word stands for. A value stands for none. -/
def switches (text : String) : List (Switch ω φ) :=
  match text.toList with
  | ['-', '-'] => []
  | '-' :: '-' :: name => (g.long? (String.ofList (name.takeWhile (· ≠ '=')))).toList
  | '-' :: c :: rest => g.shortSwitches (c :: rest)
  | _ => []

/-- One of the words stands for a switch. -/
def Gives (texts : List String) (switch : Switch ω φ) : Prop :=
  ∃ text ∈ texts, switch ∈ g.switches text

/-! ### What a state remembers -/

/-- A property of the state that recording a switch brings about, and recording any other one
neither brings about nor takes away. -/
structure Remembers (switch : Switch ω φ) (p : σ → Prop) : Prop where
  option : ∀ {o values state next}, g.setOption o values state = .ok next →
    (p next ↔ p state ∨ .option o = switch)
  flag : ∀ {f state next}, g.setFlag f state = .ok next → (p next ↔ p state ∨ .flag f = switch)

/-- A switch was recorded, or is waiting for its values. -/
def Met (switch : Switch ω φ) (p : σ → Prop) (progress : Progress ω σ) : Prop :=
  p progress.state ∨ ∃ pending ∈ progress.pending, .option pending.option = switch

theorem met_iff {switch : Switch ω φ} {p : σ → Prop} {progress : Progress ω σ}
    (h : progress.pending = none) : Met switch p progress ↔ p progress.state := by
  simp [Met, h]

/-! ### One word -/

section

variable {g} {switch : Switch ω φ} {p : σ → Prop} (h : g.Remembers switch p)
  {before after : Progress ω σ}

include h

theorem Remembers.settle (hrun : g.settle before = .ok after) :
    after.pending = none ∧ (p after.state ↔ Met switch p before) := by
  unfold Grammar.settle at hrun
  split at hrun
  · next hpending =>
      cases hrun
      exact ⟨hpending, (met_iff hpending).symm⟩
  · next pending hpending =>
      split at hrun
      · cases hrun
      · next hset =>
          cases hrun
          refine ⟨rfl, (h.option hset).trans ?_⟩
          simp [Met, hpending]

theorem Remembers.beginOption {o : ω} {value : Option String}
    (hrun : g.beginOption o value before = .ok after) :
    Met switch p after ↔ Met switch p before ∨ .option o = switch := by
  obtain ⟨settled, hsettle, hrun⟩ := Attempt.bind_eq_ok_iff.mp hrun
  obtain ⟨-, hsettled⟩ := h.settle hsettle
  cases value with
  | none =>
      cases hrun
      rw [← hsettled]
      simp [Met]
  | some v =>
      obtain ⟨hpending, hafter⟩ := h.settle hrun
      rw [met_iff hpending, hafter, ← hsettled]
      simp [Met]

theorem Remembers.raiseFlag {f : φ} (hrun : g.raiseFlag f before = .ok after) :
    Met switch p after ↔ Met switch p before ∨ .flag f = switch := by
  obtain ⟨settled, hsettle, hrun⟩ := Attempt.bind_eq_ok_iff.mp hrun
  obtain ⟨hpending, hsettled⟩ := h.settle hsettle
  split at hrun
  · cases hrun
  · next hset =>
      cases hrun
      rw [← hsettled]
      simp [Met, hpending, h.flag hset]

theorem Remembers.longWord {name : List Char} (hrun : g.longWord name before = .ok after) :
    Met switch p after ↔ Met switch p before ∨
      switch ∈ (g.long? (String.ofList (name.takeWhile (· ≠ '=')))).toList := by
  unfold Grammar.longWord at hrun
  dsimp only at hrun
  split at hrun
  · cases hrun
  · next o hlong => rw [h.beginOption hrun, hlong, Option.mem_toList, Option.some_inj]
  · next f hlong =>
      split at hrun
      · cases hrun
      · rw [h.raiseFlag hrun, hlong, Option.mem_toList, Option.some_inj]
  · split at hrun
    · cases hrun
    · obtain ⟨_, _, hrun⟩ := Attempt.bind_eq_ok_iff.mp hrun
      cases hrun
  · split at hrun
    · cases hrun
    · obtain ⟨_, _, hrun⟩ := Attempt.bind_eq_ok_iff.mp hrun
      cases hrun

theorem Remembers.shortWord {letters : List Char} (hrun : g.shortWord letters before = .ok after) :
    Met switch p after ↔ Met switch p before ∨ switch ∈ g.shortSwitches letters := by
  induction letters generalizing before with
  | nil =>
      cases hrun
      simp [shortSwitches]
  | cons c rest ih =>
      unfold Grammar.shortWord at hrun
      rw [shortSwitches]
      split at hrun
      · cases hrun
      · next o hshort => rw [h.beginOption hrun, hshort, List.mem_singleton, eq_comm]
      · next f hshort =>
          split at hrun
          · cases hrun
          · next next hflag =>
              rw [ih hrun, h.raiseFlag hflag, hshort, List.mem_cons, or_assoc,
                eq_comm (a := switch)]
      · obtain ⟨_, _, hrun⟩ := Attempt.bind_eq_ok_iff.mp hrun
        cases hrun
      · obtain ⟨_, _, hrun⟩ := Attempt.bind_eq_ok_iff.mp hrun
        cases hrun

omit h in
theorem met_valueWord {text : String} (hrun : g.valueWord text before = .ok after) :
    Met switch p after ↔ Met switch p before := by
  unfold Grammar.valueWord at hrun
  split at hrun
  · next pending hpending =>
      split at hrun
      · cases hrun
        simp [Met, hpending]
      · cases hrun
  · cases hrun

theorem Remembers.word {text : String} (hrun : g.word text before = .ok after) :
    Met switch p after ↔ Met switch p before ∨ switch ∈ g.switches text := by
  unfold Grammar.word at hrun
  unfold Grammar.switches
  split at hrun
  · cases hrun
  · generalize text.toList = chars at hrun
    split at hrun
    · cases hrun
      simp [Met]
    · simpa using h.longWord hrun
    · simpa using h.shortWord hrun
    · rw [met_valueWord hrun]
      simp

/-! ### All words -/

theorem Remembers.words {texts : List String} (hrun : g.words texts before = .ok after) :
    p after.state ↔ Met switch p before ∨ g.Gives texts switch := by
  induction texts generalizing before with
  | nil =>
      rw [(h.settle hrun).2]
      simp [Gives]
  | cons text texts ih =>
      rw [Grammar.words] at hrun
      split at hrun
      · cases hrun
      · next next hword =>
          rw [ih hrun, h.word hword, or_assoc]
          simp [Gives]

/-- Whether a switch is recorded in the end can be told from the words one by one. -/
theorem Remembers.parse {start last : σ} {texts : List String}
    (hrun : g.parse start texts = .ok last) : p last ↔ p start ∨ g.Gives texts switch := by
  obtain ⟨progress, hwords, rfl⟩ := Attempt.map_eq_ok_iff.mp hrun
  rw [h.words hwords, met_iff rfl]

end

end FlexFold.CommandLine.Grammar
