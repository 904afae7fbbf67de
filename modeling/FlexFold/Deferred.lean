import FlexFold.ClassList

/-!
Changes to a class list that wait until every directive of the element has added its utilities:
some directives depend on what the whole element ends up with.
-/

namespace FlexFold

/-- A change that waits for the complete class list. -/
inductive Deferred where
  /-- Put `new` in the place of `old`. -/
  | rewriteToken (old new : String)
  /-- Add `ifColumn` if one of `columnTokens` is present, and `otherwise` if none is. -/
  | appendByDirection (columnTokens : List String) (ifColumn otherwise : String)
deriving DecidableEq, Repr

def Deferred.apply (change : Deferred) (list : ClassList) : ClassList :=
  match change with
  | .rewriteToken old new => list.replace old new
  | .appendByDirection columnTokens ifColumn otherwise =>
      list.extend [if columnTokens.any list.contains then ifColumn else otherwise]

/-- The changes that wait, in the order in which they were registered. -/
structure Backlog where
  pending : List Deferred := []
deriving DecidableEq, Repr

namespace Backlog

def push (backlog : Backlog) (change : Deferred) : Backlog :=
  ⟨backlog.pending ++ [change]⟩

def extend (backlog : Backlog) (changes : List Deferred) : Backlog :=
  ⟨backlog.pending ++ changes⟩

def size (backlog : Backlog) : Nat := backlog.pending.length

def isEmpty (backlog : Backlog) : Bool := backlog.pending.isEmpty

/-- Carry out every change in order. Nothing waits afterwards. -/
def flush (backlog : Backlog) (list : ClassList) : ClassList × Backlog :=
  (backlog.pending.foldl (fun l change => change.apply l) list, {})

end Backlog

end FlexFold
