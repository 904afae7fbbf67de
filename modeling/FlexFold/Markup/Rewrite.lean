import FlexFold.Fold

/-!
Rewriting a whole tree. The root is rewritten whatever it is; below it only elements are, and
nothing below a child that is no element is touched.
-/

namespace FlexFold.Markup

/-- Fold the attributes of one node, if it has any. -/
def foldNode (attributes : Option (List Attribute)) (stats : Stats) :
    Option (List Attribute) × Stats :=
  match attributes with
  | none => (none, stats)
  | some before =>
      match Fold.attributes before stats.countVisit with
      | (after, stats) => (some after, if after = before then stats else stats.countChange)

namespace Node

mutual

/-- Rewrite a node, then the elements below it. -/
def rewriteFrom : Node → Stats → Node × Stats
  | ⟨kind, name, attributes, value, children, extra⟩, stats =>
      match foldNode attributes stats with
      | (attributes, stats) =>
          match rewriteChildren children stats with
          | (children, stats) => (⟨kind, name, attributes, value, children, extra⟩, stats)

/-- Rewrite the elements of a list of children. -/
def rewriteChildren : List Node → Stats → List Node × Stats
  | [], stats => ([], stats)
  | child :: children, stats =>
      if child.isElement then
        match rewriteFrom child stats with
        | (child, stats) =>
            match rewriteChildren children stats with
            | (children, stats) => (child :: children, stats)
      else
        match rewriteChildren children stats with
        | (children, stats) => (child :: children, stats)

end

/-- Rewrite a tree and count what was done. -/
def rewrite (root : Node) : Node × Stats := root.rewriteFrom {}

end Node

end FlexFold.Markup
