import FlexFold.Proofs.Attempt
import FlexFold.Proofs.Json.Recover
import FlexFold.Proofs.Markup.Parsed

/-!
Trees are recovered from their documents, down to the nesting that a reader allows.
-/

namespace FlexFold.Markup

open Json
open Json.Reader

variable {layout : Layout} {budget : Nat}

/-! ### Fields -/

theorem AreExtra.recovers {known : List String} {fields : Fields} (h : AreExtra known fields)
    (hexact : ∀ x, ¬ FieldsHold (.double x) fields) :
    ∀ field ∈ fields, (Value.reader budget).Recovers layout budget field.2 field.2 :=
  fun field hmem => (h.values field hmem).recovers (fun x hx => hexact x ⟨field, hmem, hx⟩) budget

/-! ### Attributes -/

theorem Attribute.gathers {a : Attribute} (hread : a.IsRead)
    (hexact : ∀ x, ¬ FieldsHold (.double x) a.extra) :
    Gathers layout budget (AttributeDraft.gather (Value.reader budget)) {}
      (("name", .string a.name) :: optionalField "value" .string a.value ++ a.extra)
      { name := some a.name, value := a.value.map some, extra := a.extra } := by
  let g := AttributeDraft.gather (Value.reader budget)
  let d₁ : AttributeDraft := { name := some a.name }
  let d₂ : AttributeDraft := { d₁ with value := a.value.map some }
  have hname : Gathers layout budget g {} [("name", .string a.name)] d₁ :=
    .cons rfl ((recovers_string a.name).map _) (.nil _)
  have hvalue : Gathers layout budget g d₁ (optionalField "value" .string a.value) d₂ :=
    gathers_optionalField (fun value => { d₁ with value := value }) rfl a.value
      fun s _ => (recovers_string s).nullable nofun
  have hextra : Gathers layout budget g d₂ a.extra { d₂ with extra := a.extra } := by
    refine gathers_kept (fun extra => { d₂ with extra := extra }) (fun field hmem kept => ?_)
      (hread.recovers hexact) hread.sorted
    have hunknown := hread.unknown field hmem
    simp only [attributeKeys, List.mem_cons, List.not_mem_nil, or_false, not_or] at hunknown
    simp [g, AttributeDraft.gather, hunknown]
  exact (hname.append hvalue).append hextra

theorem Attribute.recovers {a : Attribute} (hread : a.IsRead)
    (hexact : ∀ x, ¬ FieldsHold (.double x) a.extra) :
    (Attribute.reader budget).Recovers layout budget a.toValue a := by
  cases budget with
  | zero => exact recovers_object_refused _ _ _ _
  | succ budget =>
      refine recovers_object (Attribute.gathers hread hexact) ?_ _
      cases a with
      | mk name value extra => cases value <;> rfl

theorem Attribute.recovers_list {as : List Attribute} (hread : ∀ a ∈ as, a.IsRead)
    (hexact : ∀ a ∈ as, ∀ x, ¬ FieldsHold (.double x) a.extra) :
    (Attribute.listReader budget).Recovers layout budget (.array (as.map toValue)) as := by
  cases budget with
  | zero => exact recovers_array_none _ as
  | succ budget =>
      exact recovers_array fun a ha => Attribute.recovers (hread a ha) (hexact a ha)

/-! ### Nodes -/

theorem Node.listToValues_eq_map (nodes : List Node) : listToValues nodes = nodes.map toValue := by
  induction nodes with
  | nil => rfl
  | cons node nodes ih => rw [listToValues, ih, List.map_cons]

/-- The fields of a node in the order in which they are written. -/
def Node.fields (node : Node) : Fields :=
  ("type", .string node.kind.name) ::
    optionalField "name" .string node.name ++
    optionalField "attrs" (fun as => .array (as.map Attribute.toValue)) node.attributes ++
    optionalField "value" .string node.value ++
    ("children", .array (node.children.map toValue)) :: node.extra

theorem Node.toValue_eq (node : Node) : node.toValue = .object node.fields := by
  cases node
  rw [toValue, listToValues_eq_map, fields]

theorem Node.gathers {node : Node} (hread : node.IsRead)
    (hexact : ∀ x, ¬ node.Holds (.double x)) {children : Reader (List Node)}
    (hchildren : children.Recovers layout budget (.array (node.children.map toValue))
      node.children) :
    Gathers layout budget
      (NodeDraft.gather (Attribute.listReader budget) children (Value.reader budget)) {}
      node.fields
      { kind := some node.kind
        name := node.name.map some
        attributes := node.attributes.map some
        value := node.value.map some
        children := some node.children
        extra := node.extra } := by
  obtain ⟨kind, name, attributes, value, nodes, extra⟩ := node
  let g := NodeDraft.gather (Attribute.listReader budget) children (Value.reader budget)
  -- The draft after each field in turn, as the fields are written.
  let d₁ : NodeDraft := { kind := some kind }
  let d₂ : NodeDraft := { d₁ with name := name.map some }
  let d₃ : NodeDraft := { d₂ with attributes := attributes.map some }
  let d₄ : NodeDraft := { d₃ with value := value.map some }
  let d₅ : NodeDraft := { d₄ with children := some nodes }
  cases hread with
  | node hkind hattributes hnodes hextra =>
      have htype : Gathers layout budget g {} [("type", .string kind.name)] d₁ := by
        have hvalue : (string.map fun s => ({ kind := some (Kind.ofName s) } : NodeDraft)).Recovers
            layout budget (.string kind.name) { kind := some (Kind.ofName kind.name) } :=
          (recovers_string kind.name).map _
        rw [hkind] at hvalue
        exact .cons rfl hvalue (.nil _)
      have hname : Gathers layout budget g d₁ (optionalField "name" .string name) d₂ :=
        gathers_optionalField (fun name => { d₁ with name := name }) rfl name
          fun s _ => (recovers_string s).nullable nofun
      have hattrs : Gathers layout budget g d₂
          (optionalField "attrs" (fun as => .array (as.map Attribute.toValue)) attributes) d₃ :=
        gathers_optionalField (fun attributes => { d₂ with attributes := attributes }) rfl
          attributes fun as has =>
            (Attribute.recovers_list (hattributes as has)
              fun a ha x h => hexact x (.inAttribute has ha h)).nullable nofun
      have hvalue : Gathers layout budget g d₃ (optionalField "value" .string value) d₄ :=
        gathers_optionalField (fun value => { d₃ with value := value }) rfl value
          fun s _ => (recovers_string s).nullable nofun
      have hlist : Gathers layout budget g d₄ [("children", .array (nodes.map toValue))] d₅ :=
        .cons rfl (hchildren.map _) (.nil _)
      have hkept : Gathers layout budget g d₅ extra { d₅ with extra := extra } := by
        refine gathers_kept (fun extra => { d₅ with extra := extra }) (fun field hmem kept => ?_)
          (hextra.recovers fun x h => hexact x (.own h)) hextra.sorted
        have hunknown := hextra.unknown field hmem
        simp only [nodeKeys, List.mem_cons, List.not_mem_nil, or_false, not_or] at hunknown
        simp [g, NodeDraft.gather, hunknown]
      exact (((htype.append hname).append hattrs).append hvalue).append (hlist.append hkept)

theorem Node.recovers_nodeWith {node : Node} (hread : node.IsRead)
    (hexact : ∀ x, ¬ node.Holds (.double x)) {child : Option (Reader Node)}
    (hchildren : (Reader.array child).Recovers layout budget (.array (node.children.map toValue))
      node.children) :
    (reader.nodeWith (budget + 1) child).Recovers layout (budget + 1) node.toValue node := by
  rw [toValue_eq]
  refine recovers_object (Node.gathers hread hexact hchildren) ?_ _
  obtain ⟨kind, name, attributes, value, children, extra⟩ := node
  cases name <;> cases attributes <;> cases value <;> rfl

/-- A tree that was read is recovered from its document. -/
theorem Node.recovers {node : Node} (hread : node.IsRead) (hexact : ∀ x, ¬ node.Holds (.double x))
    (budget : Nat) : (Node.reader budget).Recovers layout budget node.toValue node := by
  induction node using Node.induction generalizing budget with
  | step node ih =>
      match budget with
      | 0 =>
          rw [toValue_eq]
          exact recovers_object_refused _ _ _ _
      | 1 => exact recovers_nodeWith hread hexact (recovers_array_none _ _)
      | budget + 2 =>
          refine recovers_nodeWith hread hexact (recovers_array fun child hchild => ?_)
          cases hread with
          | node _ _ hchildren _ =>
              exact ih child hchild (hchildren child hchild)
                (fun x h => hexact x (.inChild hchild h)) budget

/-- A printed tree is parsed as itself, or refused because it nests too deep. -/
theorem Node.parse_print {node : Node} (hread : node.IsRead)
    (hexact : ∀ x, ¬ node.Holds (.double x)) (layout : Layout) :
    if node.toValue.nesting ≤ maxNesting then Node.parse (node.print layout) = .ok node
    else ∃ position, Node.parse (node.print layout) = .error ⟨.nestingLimit, position⟩ :=
  (Node.recovers hread hexact maxNesting).parse

/-- A tree that was parsed is printed as a text that is parsed as the same tree, whatever the
layout. -/
theorem Node.parse_print_of_parse {source : String} {node : Node}
    (h : Node.parse source = .ok node) (hexact : ∀ x, ¬ node.Holds (.double x))
    (hfits : node.toValue.nesting ≤ maxNesting) :
    Node.parse (node.print .compact) = .ok node ∧ Node.parse (node.print .pretty) = .ok node := by
  have hprint : ∀ layout, Node.parse (node.print layout) = .ok node := by
    intro layout
    have hparse := Node.parse_print (Node.isRead_of_parse h) hexact layout
    rwa [if_pos hfits] at hparse
  exact ⟨hprint .compact, hprint .pretty⟩

/-- The greatest integer, an empty list of attributes, a text with a line feed in it and a field
that comes before the known ones. -/
def marginalNode : Node where
  kind := .element
  attributes := some []
  children := [{ kind := .other "text", value := some "\n\"é" }]
  extra := [("id", .number (.integer 18446744073709551615))]

def marginalText : String :=
  "\x7b\"id\":18446744073709551615,\"attrs\":[],\"type\":\"element\"," ++
    "\"children\":[\x7b\"value\":\"\\n\\u0022é\",\"type\":\"text\"\x7d]\x7d"

theorem Node.parse_print_of_parse_marginal :
    Node.parse (marginalNode.print .compact) = .ok marginalNode ∧
      Node.parse (marginalNode.print .pretty) = .ok marginalNode := by
  have hparse : Node.parse marginalText = .ok marginalNode :=
    Attempt.ok_of_toOption (by decide +kernel)
  have hexact : ∀ x, ¬ marginalNode.Holds (.double x) := by
    intro x h
    cases h with
    | own h =>
        obtain ⟨field, hmem, h⟩ := h
        obtain rfl := List.mem_singleton.mp hmem
        cases h
    | inAttribute has ha h =>
        cases has
        cases ha
    | inChild hchild h =>
        obtain rfl := List.mem_singleton.mp hchild
        cases h with
        | own h =>
            obtain ⟨field, hmem, h⟩ := h
            cases hmem
        | inAttribute has => cases has
        | inChild hchild => cases hchild
  exact Node.parse_print_of_parse hparse hexact (by decide +kernel)

end FlexFold.Markup
