import FlexFold.Directive.Basic
import FlexFold.Stats

/-!
Folding the attributes of one element. Plain directives disappear, and what they contribute is
merged into one class attribute in the order of the directives. Bound directives are renamed in
place and everything else passes through. The class attribute comes last; it is dropped if its
value is blank.
-/

namespace FlexFold.Fold

open Markup (Attribute)

/-- What is known while the attributes are folded from the left. -/
structure State where
  /-- The class attribute, once there is one. -/
  classSlot : Option Attribute
  /-- The other attributes, the last one first. -/
  folded : List Attribute := []
  /-- Changes that wait until all attributes are folded. -/
  backlog : Backlog := {}
  stats : Stats

/-- Merge a contribution into a class attribute. A contribution that is empty leaves the value
as it is written, any other one normalizes it. -/
def merge (a : Attribute) (effect : Effect) : Attribute :=
  if effect.isEmpty then a
  else { a with value := some (((ClassList.parse a.text).extend effect.utilities).text) }

/-- Fold one attribute that is no class attribute. -/
def step (state : State) (a : Attribute) : State :=
  match Directive.ofAttribute a with
  | .unknown => { state with folded := a :: state.folded }
  | .bound binding =>
      match binding.rename? a with
      | some renamed =>
          { state with
            folded := renamed :: state.folded
            stats := state.stats.countBinding }
      | none => { state with folded := a :: state.folded }
  | directive =>
      let effect := directive.effect
      { state with
        classSlot := some (merge (state.classSlot.getD .emptyClass) effect)
        backlog := state.backlog.extend effect.deferred
        stats := state.stats.countDirective a.name }

/-- Carry out the changes that wait. -/
def settle (state : State) : Option Attribute :=
  if state.backlog.isEmpty then state.classSlot
  else
    let a := state.classSlot.getD .emptyClass
    some { a with value := some (state.backlog.flush (ClassList.parse a.text)).1.text }

/-- The folded attributes, with the class attribute at the end unless it is blank. -/
def finish (state : State) : List Attribute :=
  let rest := state.folded.reverse
  match settle state with
  | some a => if Text.isBlankText a.text then rest else rest ++ [a]
  | none => rest

/-- Fold a list of attributes and count what was done. Of several class attributes only the
first one counts. -/
def attributes (list : List Attribute) (stats : Stats) : List Attribute × Stats :=
  let start : State := { classSlot := list.find? Attribute.isClass, stats }
  let state := (list.filter fun a => !a.isClass).foldl step start
  (finish state, state.stats)

end FlexFold.Fold
