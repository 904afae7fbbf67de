import FlexFold.Json.Message
import FlexFold.Json.Record
import FlexFold.Stats

/-!
Counters as JSON documents. The directives keep their first-seen order in both directions.
-/

namespace FlexFold.Stats

open Json (Value Record Reader Layout required)

def countValue (n : Nat) : Value := .number (.integer n)

def toValue (stats : Stats) : Value :=
  .object [
    ("elements_visited", countValue stats.elementsVisited),
    ("directives_rewritten", countValue stats.directivesRewritten),
    ("bindings_rewritten", countValue stats.bindingsRewritten),
    ("elements_changed", countValue stats.elementsChanged),
    ("directives", .object (stats.directives.entries.map fun entry =>
      (entry.1, countValue entry.2)))]

def print (layout : Layout) (stats : Stats) : String := stats.toValue.text layout

/-- A count, which fits a machine word. -/
def countReader : Reader Nat := Reader.natural "usize"

/-- The counters that were met so far. -/
structure Draft where
  elementsVisited : Option Nat := none
  directivesRewritten : Option Nat := none
  bindingsRewritten : Option Nat := none
  elementsChanged : Option Nat := none
  directives : Option (FirstSeen String Nat) := none

def record : Record Draft Stats where
  name := "RewriteStats"
  fields := [
    .slot "elements_visited" Draft.elementsVisited
      (fun draft n => { draft with elementsVisited := some n }) countReader,
    .slot "directives_rewritten" Draft.directivesRewritten
      (fun draft n => { draft with directivesRewritten := some n }) countReader,
    .slot "bindings_rewritten" Draft.bindingsRewritten
      (fun draft n => { draft with bindingsRewritten := some n }) countReader,
    .slot "elements_changed" Draft.elementsChanged
      (fun draft n => { draft with elementsChanged := some n }) countReader,
    .slot "directives" Draft.directives
      (fun draft map => { draft with directives := some map }) (Reader.mapOf countReader)]
  start := {}
  finish draft := do
    let elementsVisited ← required "elements_visited" draft.elementsVisited
    let directivesRewritten ← required "directives_rewritten" draft.directivesRewritten
    let bindingsRewritten ← required "bindings_rewritten" draft.bindingsRewritten
    let elementsChanged ← required "elements_changed" draft.elementsChanged
    let directives ← required "directives" draft.directives
    .ok { elementsVisited, directivesRewritten, bindingsRewritten, elementsChanged, directives }
  lenient := false

def parse (source : String) : Except Json.Error Stats := record.reader.parse source

end FlexFold.Stats
