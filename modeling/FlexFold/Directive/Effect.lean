import FlexFold.Deferred

/-!
What a directive contributes to the class list of its element.
-/

namespace FlexFold

/-- Utilities that are added at once, and changes that wait for the complete list. -/
structure Effect where
  utilities : List String := []
  deferred : List Deferred := []
deriving DecidableEq, Repr

namespace Effect

def empty : Effect := {}

def ofUtilities (utilities : List String) : Effect := { utilities }

def ofDeferred (change : Deferred) : Effect := { deferred := [change] }

def isEmpty (e : Effect) : Bool := e.utilities.isEmpty && e.deferred.isEmpty

def append (a b : Effect) : Effect :=
  { utilities := a.utilities ++ b.utilities, deferred := a.deferred ++ b.deferred }

instance : Append Effect := ⟨append⟩

end Effect

end FlexFold
