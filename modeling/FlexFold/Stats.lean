import FlexFold.FirstSeen

/-!
What a rewrite has done, in numbers.
-/

namespace FlexFold

structure Stats where
  /-- Nodes whose attributes were folded. -/
  elementsVisited : Nat := 0
  /-- Plain directives that were consumed. -/
  directivesRewritten : Nat := 0
  /-- Bound directives that were renamed. -/
  bindingsRewritten : Nat := 0
  /-- Nodes whose attributes came out different. -/
  elementsChanged : Nat := 0
  /-- Consumed directives by name. -/
  directives : FirstSeen String Nat := ∅
deriving DecidableEq

namespace Stats

def countDirective (stats : Stats) (name : String) : Stats :=
  { stats with
    directivesRewritten := stats.directivesRewritten + 1
    directives := stats.directives.upsert name fun count => count.getD 0 + 1 }

def countBinding (stats : Stats) : Stats :=
  { stats with bindingsRewritten := stats.bindingsRewritten + 1 }

/-- Count a node whose attributes are about to be folded. -/
def countVisit (stats : Stats) : Stats :=
  { stats with elementsVisited := stats.elementsVisited + 1 }

def countChange (stats : Stats) : Stats :=
  { stats with elementsChanged := stats.elementsChanged + 1 }

/-- Whether every list of attributes stayed as it was. -/
def isUnchanged (stats : Stats) : Bool := stats.elementsChanged == 0

end Stats

end FlexFold
