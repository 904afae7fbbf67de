import FlexFold.Proofs.Attempt
import FlexFold.Proofs.Markup.FixedPoint
import FlexFold.Proofs.Markup.Recover
import FlexFold.Source

/-!
Rewriting a text that was rewritten before. The second pass reads the tree that the first one
wrote and finds nothing to do, unless the written tree nests deeper than a reader allows.
-/

namespace FlexFold.Source

open Attempt (ok_of_toOption)
open Markup (Node Attribute)

theorem rewrite_eq_ok_iff {layout : Json.Layout} {source : Source} {done : Rewritten} :
    source.rewrite layout = .ok done ↔
      ∃ node, source.tree = .ok node ∧ done = ⟨node.rewrite.1.print layout, node.rewrite.2⟩ := by
  unfold rewrite
  cases source.tree with
  | error e => simp
  | ok node => simp [eq_comm]

theorem tree_eq_ok_iff {source : Source} {node : Node} :
    source.tree = .ok node ↔ Node.parse source.text = .ok node := by
  unfold tree
  split
  · next h => simp [h]
  · next h => simp [h]

/-- What is read from a rewritten text is the rewritten tree. -/
theorem tree_print_rewrite {node : Node} (hread : node.IsRead)
    (hexact : ∀ x, ¬ node.Holds (.double x)) (layout : Json.Layout) (name : String) :
    if node.rewrite.1.toValue.nesting ≤ Json.maxNesting then
      tree ⟨name, node.rewrite.1.print layout⟩ = .ok node.rewrite.1
    else
      ∃ position, tree ⟨name, node.rewrite.1.print layout⟩ =
        .error ⟨name, ⟨.nestingLimit, position⟩⟩ := by
  have hfolded : node.rewrite.1 = node.folded := by rw [Node.rewrite_eq]
  have hparse := Node.parse_print hread.folded
    (fun x h => hexact x (Node.holds_of_holds_folded h)) layout
  rw [hfolded]
  split
  · next hfits =>
      rw [if_pos hfits] at hparse
      exact tree_eq_ok_iff.mpr hparse
  · next hnot =>
      rw [if_neg hnot] at hparse
      obtain ⟨position, hposition⟩ := hparse
      exact ⟨position, by simp [tree, hposition]⟩

/-- A rewritten text is a fixed point, if its tree does not nest too deep to be read. -/
theorem rewrite_rewritten {layout : Json.Layout} {source : Source} {node : Node}
    {done : Rewritten} (hnode : source.tree = .ok node)
    (hexact : ∀ x, ¬ node.Holds (.double x)) (hdone : source.rewrite layout = .ok done)
    (name : String) :
    if node.rewrite.1.toValue.nesting ≤ Json.maxNesting then
      ∃ stats, rewrite layout ⟨name, done.text⟩ = .ok ⟨done.text, stats⟩ ∧ stats.isUnchanged
    else
      ∃ position, rewrite layout ⟨name, done.text⟩ =
        .error ⟨name, ⟨.nestingLimit, position⟩⟩ := by
  obtain ⟨node', hnode', rfl⟩ := rewrite_eq_ok_iff.mp hdone
  obtain rfl : node = node' := Except.ok.inj (hnode.symm.trans hnode')
  have hread : node.IsRead := Node.isRead_of_parse (tree_eq_ok_iff.mp hnode)
  have htree := tree_print_rewrite hread hexact layout name
  split
  · next hfits =>
      rw [if_pos hfits] at htree
      -- The tree that is read again is folded, so a second fold returns it as it is.
      have hagain := Node.rewrite_folded node
      have hfolded : node.rewrite.1 = node.folded := by rw [Node.rewrite_eq]
      rw [← hfolded] at hagain
      refine ⟨{ elementsVisited := node.visited.length }, ?_, rfl⟩
      exact rewrite_eq_ok_iff.mpr ⟨node.rewrite.1, htree, by rw [hagain]⟩
  · next hnot =>
      rw [if_neg hnot] at htree
      obtain ⟨position, hposition⟩ := htree
      exact ⟨position, by rw [rewrite, hposition]⟩

/-- An element with a directive and an unknown field. -/
def flexElement : Node where
  kind := .element
  attributes := some [.valueless "fxFlex"]
  extra := [("n", .array [.number (.integer 1)])]

def flexText : String :=
  "\x7b\"type\":\"element\",\"attrs\":[\x7b\"name\":\"fxFlex\"\x7d],\"n\":[1]\x7d"

def flexRewritten : String :=
  "\x7b\"type\":\"element\",\"attrs\":[\x7b\"name\":\"class\",\"value\":\"flex\"\x7d]," ++
    "\"children\":[],\"n\":[1]\x7d"

theorem rewrite_rewritten_flex :
    rewrite .compact ⟨"<input>", flexText⟩ = .ok ⟨flexRewritten, flexElement.rewrite.2⟩ ∧
      ∃ stats, rewrite .compact ⟨"<input>", flexRewritten⟩ = .ok ⟨flexRewritten, stats⟩ ∧
        stats.isUnchanged := by
  have hnode : tree ⟨"<input>", flexText⟩ = .ok flexElement := ok_of_toOption (by decide +kernel)
  have hdone : rewrite .compact ⟨"<input>", flexText⟩ =
      .ok ⟨flexRewritten, flexElement.rewrite.2⟩ :=
    rewrite_eq_ok_iff.mpr ⟨flexElement, hnode, by decide +kernel⟩
  have hexact : ∀ x, ¬ flexElement.Holds (.double x) := by
    intro x h
    cases h with
    | own h =>
        obtain ⟨field, hmem, h⟩ := h
        obtain rfl := List.mem_singleton.mp hmem
        cases h with
        | item hmem h =>
            obtain rfl := List.mem_singleton.mp hmem
            cases h
    | inAttribute has ha h =>
        cases has
        obtain rfl := List.mem_singleton.mp ha
        obtain ⟨field, hmem, h⟩ := h
        cases hmem
    | inChild hchild => cases hchild
  have hagain := rewrite_rewritten hnode hexact hdone "<input>"
  rw [if_pos (by decide +kernel)] at hagain
  exact ⟨hdone, hagain⟩

/-! ### Where the second pass is refused -/

/-- Elements in one another. -/
def chain : Nat → Node
  | 0 => { kind := .element }
  | depth + 1 => { kind := .element, children := [chain depth] }

/-- A document of such elements. The innermost one has no list of children. -/
def chainValue : Nat → Json.Value
  | 0 => .object [("type", .string "element")]
  | depth + 1 =>
      .object [("type", .string "element"), ("children", .array [chainValue depth])]

theorem chain_holds_nothing (depth : Nat) (x : Json.Number) : ¬ (chain depth).Holds x := by
  induction depth with
  | zero =>
      intro h
      cases h with
      | own h => exact absurd h (by simp [Markup.FieldsHold, chain])
      | inAttribute has => cases has
      | inChild hchild => cases hchild
  | succ depth ih =>
      intro h
      cases h with
      | own h => exact absurd h (by simp [Markup.FieldsHold, chain])
      | inAttribute has => cases has
      | inChild hchild h =>
          obtain rfl := List.mem_singleton.mp hchild
          exact ih h

theorem nesting_chainValue (depth : Nat) : (chainValue depth).nesting = 2 * depth + 1 := by
  induction depth with
  | zero => rfl
  | succ depth ih =>
      simp only [chainValue, Json.Value.nesting, Json.Value.nestingOfItems,
        Json.Value.nestingOfFields, ih]
      omega

theorem nesting_chain (depth : Nat) : (chain depth).toValue.nesting = 2 * depth + 2 := by
  induction depth with
  | zero => rfl
  | succ depth ih =>
      have hvalue : (chain (depth + 1)).toValue = .object
          [("type", .string "element"), ("children", .array [(chain depth).toValue])] := rfl
      simp only [hvalue, Json.Value.nesting, Json.Value.nestingOfItems,
        Json.Value.nestingOfFields, ih]
      omega

theorem folded_chain (depth : Nat) : (chain depth).folded = chain depth := by
  induction depth with
  | zero => rfl
  | succ depth ih =>
      have hkind : (chain depth).isElement = true := by cases depth <;> rfl
      rw [Node.folded_eq]
      simp [chain, hkind, ih]

section

open Json.Reader

theorem recovers_chain {layout : Json.Layout} (depth budget : Nat) :
    (Node.reader budget).Recovers layout budget (chainValue depth) (chain depth) := by
  have htype : ∀ {budget : Nat} {attributes : Json.Reader (List Attribute)}
      {children : Json.Reader (List Node)} {other : Json.Reader Json.Value},
      Gathers layout budget (Markup.NodeDraft.gather attributes children other) {}
        [("type", .string "element")] { kind := some .element } :=
    .cons rfl ((recovers_string "element").map fun s =>
      ({ kind := some (Markup.Kind.ofName s) } : Markup.NodeDraft)) (.nil _)
  induction depth generalizing budget with
  | zero =>
      match budget with
      | 0 => exact recovers_object_refused _ _ _ _
      | 1 => exact recovers_object htype rfl _
      | budget + 2 => exact recovers_object htype rfl _
  | succ depth ih =>
      match budget with
      | 0 => exact recovers_object_refused _ _ _ _
      | 1 =>
          have hchildren : (Json.Reader.array (none : Option (Json.Reader Node))).Recovers layout 0
              (.array [chainValue depth]) [chain depth] := recovers_array_none _ _
          exact recovers_object (htype.append (.cons rfl (hchildren.map _) (.nil _))) rfl _
      | budget + 2 =>
          have hchildren : (Json.Reader.array (some (Node.reader budget))).Recovers layout
              (budget + 1) (.array ([chain depth].map fun _ => chainValue depth))
              [chain depth] := by
            refine recovers_array fun node hnode => ?_
            rw [List.mem_singleton.mp hnode]
            exact ih budget
          exact recovers_object (htype.append (.cons rfl (hchildren.map _) (.nil _))) rfl _

end

theorem tree_chain (name : String) {depth : Nat} (h : depth ≤ 63) (layout : Json.Layout) :
    tree ⟨name, (chainValue depth).text layout⟩ = .ok (chain depth) := by
  have hrecovers : (Node.reader Json.maxNesting).Recovers layout Json.maxNesting
      (chainValue depth) (chain depth) := recovers_chain depth Json.maxNesting
  have hparse := hrecovers.parse
  rw [if_pos (by rw [nesting_chainValue, Json.maxNesting]; omega)] at hparse
  exact tree_eq_ok_iff.mpr hparse

theorem tree_print_chain (name : String) {depth : Nat} (h : depth = 63)
    (layout : Json.Layout) :
    ∃ position, tree ⟨name, (chain depth).rewrite.1.print layout⟩ =
      .error ⟨name, ⟨.nestingLimit, position⟩⟩ := by
  have hnode := tree_chain name (Nat.le_of_eq h) layout
  have hrefused := tree_print_rewrite (Node.isRead_of_parse (tree_eq_ok_iff.mp hnode))
    (fun x => chain_holds_nothing depth _) layout name
  have hdeep : ¬ (chain depth).rewrite.1.toValue.nesting ≤ Json.maxNesting := by
    rw [Node.rewrite_eq, folded_chain, nesting_chain, Json.maxNesting]
    omega
  rwa [if_neg hdeep] at hrefused

/-- The text of sixty-four elements is accepted, and its rewritten text is not. -/
theorem not_rewrite_rewritten :
    ¬ ∀ (layout : Json.Layout) (source : Source) (node : Node) (done : Rewritten),
      source.tree = .ok node → (∀ x, ¬ node.Holds (.double x)) →
      source.rewrite layout = .ok done →
      ∃ stats, rewrite layout ⟨source.name, done.text⟩ = .ok ⟨done.text, stats⟩ ∧
        stats.isUnchanged := by
  intro h
  -- The depth stays a variable: nothing has to unfold the sixty-three levels.
  obtain ⟨depth, hdepth⟩ : ∃ depth, depth = 63 := ⟨63, rfl⟩
  have hnode := tree_chain "<input>" (Nat.le_of_eq hdepth) .compact
  obtain ⟨stats, hagain, -⟩ := h .compact ⟨"<input>", (chainValue depth).text .compact⟩
    (chain depth) _ hnode (fun x => chain_holds_nothing depth _)
    (rewrite_eq_ok_iff.mpr ⟨_, hnode, rfl⟩)
  obtain ⟨position, hposition⟩ := tree_print_chain "<input>" hdepth .compact
  rw [rewrite, hposition] at hagain
  cases hagain

end FlexFold.Source
