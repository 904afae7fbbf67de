import FlexFold.Proofs.Json.Accepted
import FlexFold.Proofs.Markup.Parsed
import FlexFold.Source

/-!
Which texts are template trees. The reader goes over a text once, and it accepts exactly the
documents whose value, taken as it stands in the text, has the shape of a node.
-/

namespace FlexFold

namespace Markup

open Json (Value Fields Reader)
open Json.Reader (Fit Recognizes Gather recognizes_string recognizes_array
  recognizes_array_none recognizes_object_refused)

/-! ### The schema -/

def IsText (v : Value) : Prop := ∃ s, v = .string s

def IsOptionalText (v : Value) : Prop := v = .null ∨ IsText v

/-- An array of values that have a property. -/
def IsListOf (p : Value → Prop) (v : Value) : Prop :=
  ∃ items, v = .array items ∧ ∀ item ∈ items, p item

/-- The fields of an attribute. Unknown ones have any value. -/
inductive AttributeField : String → Value → Prop where
  | name {v : Value} (h : IsText v) : AttributeField "name" v
  | value {v : Value} (h : IsOptionalText v) : AttributeField "value" v
  | other {key : String} (h : key ∉ attributeKeys) (v : Value) : AttributeField key v

def IsAttribute (v : Value) : Prop :=
  ∃ fields, v = .object fields ∧ Fit attributeKeys ["name"] AttributeField fields

/-- The fields of a node, given what its children are. Unknown ones have any value. -/
inductive NodeField (isChild : Value → Prop) : String → Value → Prop where
  | type {v : Value} (h : IsText v) : NodeField isChild "type" v
  | name {v : Value} (h : IsOptionalText v) : NodeField isChild "name" v
  | attrs {v : Value} (h : v = .null ∨ IsListOf IsAttribute v) : NodeField isChild "attrs" v
  | value {v : Value} (h : IsOptionalText v) : NodeField isChild "value" v
  | children {items : List Value} (h : ∀ item ∈ items, isChild item) :
      NodeField isChild "children" (.array items)
  | other {key : String} (h : key ∉ nodeKeys) (v : Value) : NodeField isChild key v

/-- The values that are nodes. -/
inductive IsNode : Value → Prop where
  | object {fields : Fields} (once : ∀ key ∈ nodeKeys, (fields.map Prod.fst).count key ≤ 1)
      (type : "type" ∈ fields.map Prod.fst)
      (values : ∀ field ∈ fields, NodeField IsNode field.1 field.2) : IsNode (.object fields)

theorem isNode_iff (v : Value) :
    IsNode v ↔ ∃ fields, v = .object fields ∧ Fit nodeKeys ["type"] (NodeField IsNode) fields := by
  constructor
  · rintro ⟨once, type, values⟩
    exact ⟨_, rfl, once, by simpa using type, values⟩
  · rintro ⟨fields, rfl, h⟩
    exact .object h.once (h.required "type" (by simp)) h.values

theorem attributeField_iff (key : String) (v : Value) :
    AttributeField key v ↔
      if key = "name" then IsText v else if key = "value" then IsOptionalText v else True := by
  constructor
  · intro h
    cases h with
    | other h =>
        simp only [attributeKeys, List.mem_cons, List.not_mem_nil, or_false, not_or] at h
        rw [if_neg h.1, if_neg h.2]
        trivial
    | _ h => simpa using h
  · intro h
    split at h
    · next hkey => exact hkey ▸ .name h
    split at h
    · next hkey => exact hkey ▸ .value h
    · next hname hvalue => exact .other (by simp [attributeKeys, hname, hvalue]) v

theorem nodeField_iff (p : Value → Prop) (key : String) (v : Value) :
    NodeField p key v ↔
      if key = "type" then IsText v
      else if key = "name" then IsOptionalText v
      else if key = "attrs" then v = .null ∨ IsListOf IsAttribute v
      else if key = "value" then IsOptionalText v
      else if key = "children" then IsListOf p v
      else True := by
  constructor
  · intro h
    cases h with
    | other h =>
        simp only [nodeKeys, List.mem_cons, List.not_mem_nil, or_false, not_or] at h
        rw [if_neg h.1, if_neg h.2.1, if_neg h.2.2.1, if_neg h.2.2.2.1, if_neg h.2.2.2.2]
        trivial
    | children h => simpa [IsListOf] using h
    | _ h => simpa using h
  · intro h
    split at h
    · next hkey => exact hkey ▸ .type h
    split at h
    · next hkey => exact hkey ▸ .name h
    split at h
    · next hkey => exact hkey ▸ .attrs h
    split at h
    · next hkey => exact hkey ▸ .value h
    split at h
    · next hkey =>
        obtain ⟨items, rfl, hitems⟩ := h
        exact hkey ▸ .children hitems
    · next htype hname hattrs hvalue hchildren =>
        exact .other (by simp [nodeKeys, htype, hname, hattrs, hvalue, hchildren]) v

/-! ### Readers within a budget -/

variable {p : Value → Prop} {budget : Nat}

theorem recognizes_text (budget : Nat) :
    Reader.string.Recognizes fun v => IsText v ∧ v.nesting ≤ budget := by
  refine recognizes_string.congr fun v => ⟨?_, And.left⟩
  rintro ⟨s, rfl⟩
  exact ⟨⟨s, rfl⟩, Nat.zero_le _⟩

theorem Recognizes.optional {α : Type} {r : Reader α}
    (h : r.Recognizes fun v => p v ∧ v.nesting ≤ budget) :
    r.nullable.Recognizes fun v => (v = .null ∨ p v) ∧ v.nesting ≤ budget := by
  refine h.nullable.congr fun v => ?_
  rw [or_and_right]
  refine or_congr_left ⟨?_, And.left⟩
  rintro rfl
  exact ⟨rfl, Nat.zero_le _⟩

theorem Recognizes.list {α : Type} {r : Reader α}
    (h : r.Recognizes fun v => p v ∧ v.nesting ≤ budget) :
    (Reader.array (some r)).Recognizes fun v => IsListOf p v ∧ v.nesting ≤ budget + 1 := by
  refine (recognizes_array h).congr fun v => ⟨?_, ?_⟩
  · rintro ⟨items, rfl, hitems⟩
    exact ⟨⟨items, rfl, fun item hitem => (hitems item hitem).1⟩,
      Value.nesting_array_le_iff.mpr fun item hitem => (hitems item hitem).2⟩
  · rintro ⟨⟨items, rfl, hitems⟩, hfits⟩
    exact ⟨items, rfl, fun item hitem =>
      ⟨hitems item hitem, Value.nesting_array_le_iff.mp hfits item hitem⟩⟩

theorem recognizes_list_none {α : Type} (p : Value → Prop) :
    (Reader.array (none : Option (Reader α))).Recognizes fun v =>
      IsListOf p v ∧ v.nesting ≤ 0 := by
  refine recognizes_array_none.congr fun v => ⟨False.elim, ?_⟩
  rintro ⟨⟨items, rfl, -⟩, hfits⟩
  cases hfits

/-- The budget of an object goes one deeper than that of the values in it. -/
theorem exists_fit_iff {known required : List String} {p : String → Value → Prop} (v : Value) :
    (∃ fields, v = .object fields ∧
        Fit known required (fun key v => p key v ∧ v.nesting ≤ budget) fields) ↔
      (∃ fields, v = .object fields ∧ Fit known required p fields) ∧ v.nesting ≤ budget + 1 := by
  constructor
  · rintro ⟨fields, rfl, h⟩
    exact ⟨⟨fields, rfl, h.once, h.required, fun field hmem => (h.values field hmem).1⟩,
      Value.nesting_object_le_iff.mpr fun field hmem => (h.values field hmem).2⟩
  · rintro ⟨⟨fields, rfl, h⟩, hfits⟩
    exact ⟨fields, rfl, h.once, h.required, fun field hmem =>
      ⟨h.values field hmem, Value.nesting_object_le_iff.mp hfits field hmem⟩⟩

/-! ### Attributes -/

/-- The known keys that were met. -/
def AttributeDraft.Met (draft : AttributeDraft) (key : String) : Prop :=
  key = "name" ∧ draft.name.isSome ∨ key = "value" ∧ draft.value.isSome

theorem AttributeDraft.follows_gather (budget : Nat) :
    Reader.Follows (gather (Value.reader budget)) attributeKeys ["name"]
      (fun key v => AttributeField key v ∧ v.nesting ≤ budget) Met where
  required_subset := by simp [attributeKeys]
  start key := by simp [gather, Met]
  refused := by
    rintro draft key (⟨rfl, h⟩ | ⟨rfl, h⟩) <;> exact ⟨_, by simp [gather, h]; rfl⟩
  field := by
    intro draft key hnew
    simp only [gather, attributeField_iff]
    by_cases hname : key = "name"
    · subst hname
      have hnone : ¬ draft.name.isSome := fun h => hnew (.inl ⟨rfl, h⟩)
      refine ⟨_, by rw [if_pos rfl, if_neg hnone], (recognizes_text budget).field _ fun _ k => ?_⟩
      by_cases hk : k = "name" <;> simp [Met, attributeKeys, hk]
    by_cases hvalue : key = "value"
    · subst hvalue
      have hnone : ¬ draft.value.isSome := fun h => hnew (.inr ⟨rfl, h⟩)
      refine ⟨_, by rw [if_neg hname, if_pos rfl, if_neg hnone],
        (Recognizes.optional (recognizes_text budget)).field _ fun _ k => ?_⟩
      by_cases hk : k = "value" <;> simp [Met, attributeKeys, hk]
    · refine ⟨_, by rw [if_neg hname, if_neg hvalue], ?_⟩
      simp only [hname, hvalue, if_false, true_and]
      refine (Value.recognizes_reader budget).field _ fun _ k => ?_
      have hunknown : key ∉ attributeKeys := by simp [attributeKeys, hname, hvalue]
      simp only [Met, iff_self_or]
      rintro ⟨rfl, hk⟩
      exact (hunknown hk).elim
  finish := by
    intro draft
    cases h : draft.name <;> simp [gather, Met, h]

/-- An attribute with its own object within the budget. -/
theorem Attribute.recognizes_reader (budget : Nat) :
    (Attribute.reader budget).Recognizes fun v => IsAttribute v ∧ v.nesting ≤ budget := by
  cases budget with
  | zero =>
      refine (recognizes_object_refused _ _).congr fun v => ⟨False.elim, ?_⟩
      rintro ⟨⟨fields, rfl, -⟩, hfits⟩
      cases hfits
  | succ budget =>
      exact ((AttributeDraft.follows_gather budget).recognizes_object _).congr exists_fit_iff

theorem Attribute.recognizes_listReader (budget : Nat) :
    (Attribute.listReader budget).Recognizes fun v =>
      IsListOf IsAttribute v ∧ v.nesting ≤ budget := by
  cases budget with
  | zero => exact recognizes_list_none IsAttribute
  | succ budget => exact Recognizes.list (Attribute.recognizes_reader budget)

/-! ### Nodes -/

/-- The known keys that were met. -/
def NodeDraft.Met (draft : NodeDraft) (key : String) : Prop :=
  key = "type" ∧ draft.kind.isSome ∨ key = "name" ∧ draft.name.isSome ∨
    key = "attrs" ∧ draft.attributes.isSome ∨ key = "value" ∧ draft.value.isSome ∨
    key = "children" ∧ draft.children.isSome

theorem NodeDraft.follows_gather {children : Reader (List Node)}
    (hchildren : children.Recognizes fun v => IsListOf IsNode v ∧ v.nesting ≤ budget) :
    Reader.Follows (gather (Attribute.listReader budget) children (Value.reader budget)) nodeKeys
      ["type"] (fun key v => NodeField IsNode key v ∧ v.nesting ≤ budget) Met where
  required_subset := by simp [nodeKeys]
  start key := by simp [gather, Met]
  refused := by
    rintro draft key (⟨rfl, h⟩ | ⟨rfl, h⟩ | ⟨rfl, h⟩ | ⟨rfl, h⟩ | ⟨rfl, h⟩) <;>
      exact ⟨_, by simp [gather, h]; rfl⟩
  field := by
    intro draft key hnew
    simp only [Met, not_or, not_and, Bool.not_eq_true, Option.isSome_eq_false_iff] at hnew
    simp only [gather, nodeField_iff]
    by_cases htype : key = "type"
    · subst htype
      have hnone : ¬ draft.kind.isSome := by simpa using hnew.1 rfl
      refine ⟨_, by rw [if_pos rfl, if_neg hnone], (recognizes_text budget).field _ fun _ k => ?_⟩
      by_cases hk : k = "type" <;> simp [Met, nodeKeys, hk]
    by_cases hname : key = "name"
    · subst hname
      have hnone : ¬ draft.name.isSome := by simpa using hnew.2.1 rfl
      refine ⟨_, by rw [if_neg htype, if_pos rfl, if_neg hnone],
        (Recognizes.optional (recognizes_text budget)).field _ fun _ k => ?_⟩
      by_cases hk : k = "name" <;> simp [Met, nodeKeys, hk]
    by_cases hattrs : key = "attrs"
    · subst hattrs
      have hnone : ¬ draft.attributes.isSome := by simpa using hnew.2.2.1 rfl
      refine ⟨_, by rw [if_neg htype, if_neg hname, if_pos rfl, if_neg hnone],
        (Recognizes.optional (Attribute.recognizes_listReader budget)).field _ fun _ k => ?_⟩
      by_cases hk : k = "attrs" <;> simp [Met, nodeKeys, hk]
    by_cases hvalue : key = "value"
    · subst hvalue
      have hnone : ¬ draft.value.isSome := by simpa using hnew.2.2.2.1 rfl
      refine ⟨_, by rw [if_neg htype, if_neg hname, if_neg hattrs, if_pos rfl, if_neg hnone],
        (Recognizes.optional (recognizes_text budget)).field _ fun _ k => ?_⟩
      by_cases hk : k = "value" <;> simp [Met, nodeKeys, hk]
    by_cases hlist : key = "children"
    · subst hlist
      have hnone : ¬ draft.children.isSome := by simpa using hnew.2.2.2.2 rfl
      refine ⟨_, by rw [if_neg htype, if_neg hname, if_neg hattrs, if_neg hvalue, if_pos rfl,
        if_neg hnone], hchildren.field _ fun _ k => ?_⟩
      by_cases hk : k = "children" <;> simp [Met, nodeKeys, hk]
    · refine ⟨_, by rw [if_neg htype, if_neg hname, if_neg hattrs, if_neg hvalue, if_neg hlist], ?_⟩
      simp only [htype, hname, hattrs, hvalue, hlist, if_false, true_and]
      refine (Value.recognizes_reader budget).field _ fun _ k => ?_
      have hunknown : key ∉ nodeKeys := by simp [nodeKeys, htype, hname, hattrs, hvalue, hlist]
      simp only [Met, iff_self_or]
      rintro ⟨rfl, hk⟩
      exact (hunknown hk).elim
  finish := by
    intro draft
    cases h : draft.kind <;> simp [gather, Met, h]

theorem Node.recognizes_nodeWith {child : Option (Reader Node)}
    (h : (Reader.array child).Recognizes fun v => IsListOf IsNode v ∧ v.nesting ≤ budget) :
    (Node.reader.nodeWith (budget + 1) child).Recognizes fun v =>
      IsNode v ∧ v.nesting ≤ budget + 1 := by
  refine ((NodeDraft.follows_gather h).recognizes_object _).congr fun v => ?_
  rw [isNode_iff]
  exact exists_fit_iff v

/-- A node with its own object within the budget. Each child takes two of it, one for the array
that it stands in. -/
theorem Node.recognizes_reader (budget : Nat) :
    (Node.reader budget).Recognizes fun v => IsNode v ∧ v.nesting ≤ budget := by
  match budget with
  | 0 =>
      refine (recognizes_object_refused _ _).congr fun v => ⟨False.elim, ?_⟩
      rintro ⟨⟨-, -, -⟩, hfits⟩
      cases hfits
  | 1 => exact recognizes_nodeWith (recognizes_list_none IsNode)
  | budget + 2 => exact recognizes_nodeWith (Recognizes.list (recognizes_reader budget))

end Markup

/-! ### Documents -/

/-- The texts of template trees. -/
def Source.IsTemplate (text : String) : Prop :=
  ∃ value, Json.IsDocument value text.toList ∧ value.nesting ≤ Json.maxNesting ∧
    Markup.IsNode value

theorem Markup.Node.parse_iff (text : String) :
    (∃ node, Markup.Node.parse text = .ok node) ↔ Source.IsTemplate text := by
  rw [Markup.Node.parse, (Markup.Node.recognizes_reader Json.maxNesting).parse_iff]
  simp only [Source.IsTemplate, and_comm]

/-- A tree is read from the text of a template tree, and from no other. What is wrong with another
text is said under the name of its source. -/
theorem Source.tree_succeeds_iff (source : Source) :
    ((∃ node, source.tree = .ok node) ↔ IsTemplate source.text) ∧
      ((∃ error, source.tree = .error ⟨source.name, error⟩) ↔ ¬ IsTemplate source.text) := by
  rw [← Markup.Node.parse_iff]
  unfold tree
  cases Markup.Node.parse source.text <;> simp

end FlexFold
