import FlexFold.Directive.Effect

/-!
The values that directives know, and the utilities that each stands for.
-/

namespace FlexFold

/-- An inline layout turns the `flex` of its element into `inline-flex`. -/
def Deferred.inline : Deferred := .rewriteToken "flex" "inline-flex"

/-- A stretched cross axis limits the height of a column and the width of anything else. -/
def Deferred.stretch : Deferred :=
  .appendByDirection ["flex-col", "flex-col-reverse"] "max-h-full" "max-w-full"

/-- The place of an element across the main axis of its parent. -/
inductive SelfAlign where
  | start
  | center
  | finish
  | baseline
  | stretch
deriving DecidableEq, Repr

namespace SelfAlign

/-- The alignment of a value, which has to be exact. -/
def ofText? : String → Option SelfAlign
  | "start" => some .start
  | "center" => some .center
  | "end" => some .finish
  | "baseline" => some .baseline
  | "stretch" => some .stretch
  | _ => none

def effect : SelfAlign → Effect
  | .start => .ofUtilities ["self-start"]
  | .center => .ofUtilities ["self-center"]
  | .finish => .ofUtilities ["self-end"]
  | .baseline => .ofUtilities ["self-baseline"]
  | .stretch => .ofUtilities ["self-stretch"]

end SelfAlign

inductive Direction where
  | row
  | column
  | rowReverse
  | columnReverse
deriving DecidableEq, Repr

namespace Direction

def ofText? : String → Option Direction
  | "row" => some .row
  | "column" => some .column
  | "row-reverse" => some .rowReverse
  | "column-reverse" => some .columnReverse
  | _ => none

def effect : Direction → Effect
  | .row => .ofUtilities ["flex"]
  | .column => .ofUtilities ["flex", "flex-col"]
  | .rowReverse => .ofUtilities ["flex", "flex-row-reverse"]
  | .columnReverse => .ofUtilities ["flex", "flex-col-reverse"]

end Direction

/-- What may follow the direction of a layout. -/
inductive Modifier where
  | wrap
  | inline
deriving DecidableEq, Repr

namespace Modifier

def ofText? : String → Option Modifier
  | "wrap" => some .wrap
  | "inline" => some .inline
  | _ => none

def effect : Modifier → Effect
  | .wrap => .ofUtilities ["flex-wrap"]
  | .inline => .ofDeferred .inline

end Modifier

/-- How children are placed along the main axis. -/
inductive MainAxis where
  | start
  | center
  | finish
  | spaceAround
  | spaceBetween
  | spaceEvenly
deriving DecidableEq, Repr

namespace MainAxis

def ofText? : String → Option MainAxis
  | "start" | "flex-start" => some .start
  | "center" => some .center
  | "end" | "flex-end" => some .finish
  | "space-around" => some .spaceAround
  | "space-between" => some .spaceBetween
  | "space-evenly" => some .spaceEvenly
  | _ => none

def effect : MainAxis → Effect
  | .start => .ofUtilities ["flex", "justify-start"]
  | .center => .ofUtilities ["flex", "justify-center"]
  | .finish => .ofUtilities ["flex", "justify-end"]
  | .spaceAround => .ofUtilities ["flex", "justify-around"]
  | .spaceBetween => .ofUtilities ["flex", "justify-between"]
  | .spaceEvenly => .ofUtilities ["flex", "justify-evenly"]

end MainAxis

/-- How children are placed across the main axis. -/
inductive CrossAxis where
  | start
  | center
  | finish
  | spaceAround
  | spaceBetween
  | baseline
  | stretch
deriving DecidableEq, Repr

namespace CrossAxis

def ofText? : String → Option CrossAxis
  | "start" | "flex-start" => some .start
  | "center" => some .center
  | "end" | "flex-end" => some .finish
  | "space-around" => some .spaceAround
  | "space-between" => some .spaceBetween
  | "baseline" => some .baseline
  | "stretch" => some .stretch
  | _ => none

/-- The contribution of a placement. Only a stretched axis depends on the rest of the list. -/
def effect : CrossAxis → Effect
  | .start => .ofUtilities ["flex", "items-start", "content-start"]
  | .center => .ofUtilities ["flex", "items-center", "content-center"]
  | .finish => .ofUtilities ["flex", "items-end", "content-end"]
  | .spaceAround => .ofUtilities ["flex", "content-around"]
  | .spaceBetween => .ofUtilities ["flex", "content-between"]
  | .baseline => .ofUtilities ["flex", "items-baseline"]
  | .stretch => .ofDeferred .stretch

end CrossAxis

end FlexFold
