import FlexFold.Markup.Document
import FlexFold.Markup.Rewrite

/-!
Rewriting the text of a template tree. A source has a name, which its errors mention.
-/

namespace FlexFold

/-- The text of a template tree. -/
structure Source where
  name : String := "<input>"
  text : String

/-- A source that is no template tree. -/
structure SourceError where
  name : String
  error : Json.Error
deriving DecidableEq, Repr

def SourceError.message (e : SourceError) : String :=
  "Failed to parse template tree " ++ e.name ++ ": " ++ e.error.message

/-- What becomes of a source. -/
structure Rewritten where
  text : String
  stats : Stats
deriving DecidableEq

namespace Source

def tree (source : Source) : Except SourceError Markup.Node :=
  match Markup.Node.parse source.text with
  | .ok node => .ok node
  | .error error => .error ⟨source.name, error⟩

/-- Read a tree, rewrite it and print it. -/
def rewrite (layout : Json.Layout) (source : Source) : Except SourceError Rewritten :=
  match source.tree with
  | .error e => .error e
  | .ok node => .ok ⟨node.rewrite.1.print layout, node.rewrite.2⟩

end Source

end FlexFold
