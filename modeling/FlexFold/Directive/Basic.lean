import FlexFold.Directive.Value
import FlexFold.Markup.Node

/-!
Which attributes are directives, and what they contribute. Plain directives are consumed, bound
ones are renamed, and all other attributes are no concern of the library. An unknown value is no
error: it contributes nothing.
-/

namespace FlexFold

open Markup (Attribute)

/-- A directive that is bound to an expression, as in `[fxHide]="closed"`. -/
inductive Binding where
  | flex
  | hide
  | show
  /-- A binding of anything else, which stays as it is. -/
  | other
deriving DecidableEq, Repr

namespace Binding

/-- The binding of a name between brackets. -/
def ofText : String → Binding
  | "fxFlex" => .flex
  | "fxHide" => .hide
  | "fxShow" => .show
  | _ => .other

/-- The class binding that takes the place of a directive. Showing is hiding on the negated
expression, which is written on one line. -/
def rename? (b : Binding) (a : Attribute) : Option Attribute :=
  match b with
  | .flex => some { a with name := "[class.flex]" }
  | .hide => some { a with name := "[class.hidden]" }
  | .show =>
      let negate (expression : String) : String :=
        String.ofList ('!' :: expression.toList.filter (· ≠ '\n'))
      some { a with name := "[class.hidden]", value := a.value.map negate }
  | .other => none

end Binding

/-- What an attribute is, with the value it has as far as that matters. -/
inductive Directive where
  | flex
  | fill
  | hide (value : Option String)
  | show (value : Option String)
  | selfAlign (value : Option String)
  | layout (value : Option String)
  | layoutAlign (value : Option String)
  | bound (binding : Binding)
  | unknown
deriving DecidableEq, Repr

namespace Directive

/-- The text between brackets, if the name has both of them. -/
def bracketed? (name : String) : Option String :=
  match name.toList with
  | '[' :: rest =>
      if rest.getLast? = some ']' then some (String.ofList rest.dropLast) else none
  | _ => none

def ofName (name : String) (value : Option String) : Directive :=
  match name with
  | "fxFlex" => .flex
  | "fxFlexFill" | "fxFill" => .fill
  | "fxHide" => .hide value
  | "fxShow" => .show value
  | "fxFlexAlign" => .selfAlign value
  | "fxLayout" => .layout value
  | "fxLayoutAlign" => .layoutAlign value
  | _ => .unknown

def ofAttribute (a : Attribute) : Directive :=
  match bracketed? a.name with
  | some inner => .bound (.ofText inner)
  | none => ofName a.name a.value

/-- Whether the directive disappears into the class list. -/
def isPlain : Directive → Bool
  | .bound _ | .unknown => false
  | _ => true

/-- The utilities of an element that fills its parent. -/
def fillUtilities : List String := ["m-0", "w-full", "h-full", "min-w-full", "min-h-full"]

/-- The contribution of a word, if it is known. -/
def effectOf {α : Type} (ofText? : String → Option α) (effect : α → Effect) (word : String) :
    Effect :=
  match ofText? word with
  | some a => effect a
  | none => .empty

/-- The contribution of a layout: a direction, then a modifier. No value means a row, a blank
one means nothing, and what follows the second word is ignored. -/
def layoutEffect (value : Option String) : Effect :=
  match Text.words (value.getD "row") with
  | [] => .empty
  | direction :: rest =>
      effectOf Direction.ofText? Direction.effect direction ++
        match rest with
        | [] => .empty
        | modifier :: _ => effectOf Modifier.ofText? Modifier.effect modifier

/-- The contribution of an alignment: a word for the main axis, then one for the cross axis. A
word that stands alone counts for both. The cross axis comes first. -/
def layoutAlignEffect (value : Option String) : Effect :=
  match Text.words (value.getD "") with
  | [] => .empty
  | main :: rest =>
      effectOf CrossAxis.ofText? CrossAxis.effect (rest.headD main) ++
        effectOf MainAxis.ofText? MainAxis.effect main

/-- What a directive contributes to the class list. Only the value `false` reverses hiding and
showing. -/
def effect : Directive → Effect
  | .flex => .ofUtilities ["flex"]
  | .fill => .ofUtilities fillUtilities
  | .hide value => if value = some "false" then .empty else .ofUtilities ["hidden"]
  | .show value => if value = some "false" then .ofUtilities ["hidden"] else .empty
  | .selfAlign value =>
      match value with
      | some word => effectOf SelfAlign.ofText? SelfAlign.effect word
      | none => .empty
  | .layout value => layoutEffect value
  | .layoutAlign value => layoutAlignEffect value
  | .bound _ | .unknown => .empty

end Directive

end FlexFold
