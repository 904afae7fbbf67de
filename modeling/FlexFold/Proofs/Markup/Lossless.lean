import FlexFold.Proofs.Attempt
import FlexFold.Proofs.Json.Mirror
import FlexFold.Proofs.Markup.Recover

/-!
Nothing is lost between a document and the tree that is read from it. The tree is written as the
value that the document holds, in a normal form: known fields that may be missing are left out if
they are `null`, and every node has a list of children.
-/

namespace FlexFold.Markup

open Json
open Json.Reader (Mirrors Tracks orNull mirrors_self mirrors_string mirrors_array
  mirrors_object_refused)

/-- The fields of an attribute in the order in which they are written. -/
def Attribute.fields (a : Attribute) : Fields :=
  ("name", .string a.name) :: optionalField "value" .string a.value ++ a.extra

section

variable {fields : Fields} {key : String}

/-! ### Normal forms -/

/-- Leave out the fields that bear one of some keys and are `null`. -/
def dropNulls (keys : List String) (fields : Fields) : Fields :=
  fields.filter fun field => ¬ (field.1 ∈ keys ∧ field.2 = .null)

/-- Fields with a list of children, which is empty if there was none. -/
def withChildren (fields : Fields) : Fields :=
  match Fields.get? fields "children" with
  | some _ => fields
  | none => Fields.insert "children" (.array []) fields

/-- The normal form of the document of an attribute. -/
def normalAttribute : Value → Value
  | .object fields => .object (dropNulls ["value"] fields)
  | value => value

mutual

/-- The normal form of the document of a node. Below the node only its attributes and its children
are changed, and no other field whatever it holds. -/
def normalNode : Value → Value
  | .object fields =>
      .object (withChildren (dropNulls ["name", "attrs", "value"] (normalFields fields)))
  | value => value

def normalFields : List (String × Value) → List (String × Value)
  | [] => []
  | (key, value) :: fields => (key, normalField key value) :: normalFields fields

/-- The normal form of what stands in the field `key` of a node. -/
def normalField (key : String) : Value → Value
  | .array items =>
      if key = "attrs" then .array (items.map normalAttribute)
      else if key = "children" then .array (normalNodes items)
      else .array items
  | value => value

def normalNodes : List Value → List Value
  | [] => []
  | item :: items => normalNode item :: normalNodes items

end

theorem normalField_of_other (value : Value) (h : key ≠ "attrs") (h' : key ≠ "children") :
    normalField key value = value := by
  cases value <;> simp [normalField, h, h']

theorem normalField_attributes (items : List Value) :
    normalField "attrs" (.array items) = .array (items.map normalAttribute) := by
  simp [normalField]

theorem normalNodes_eq_map (items : List Value) : normalNodes items = items.map normalNode := by
  induction items with
  | nil => rfl
  | cons item items ih => rw [normalNodes, ih, List.map_cons]

theorem normalField_children (items : List Value) :
    normalField "children" (.array items) = .array (items.map normalNode) := by
  simp [normalField, normalNodes_eq_map]

/-! ### Looking up fields of a normal form -/

theorem isSorted_dropNulls (keys : List String) (h : Fields.IsSorted fields) :
    Fields.IsSorted (dropNulls keys fields) :=
  List.Pairwise.sublist (List.filter_sublist.map Prod.fst) h

theorem get?_dropNulls (keys : List String) (h : Fields.IsSorted fields) (key : String) :
    Fields.get? (dropNulls keys fields) key =
      if key ∈ keys then (Fields.get? fields key).filter (· ≠ .null)
      else Fields.get? fields key := by
  refine Option.ext fun value => ?_
  rw [Fields.get?_eq_some_iff (isSorted_dropNulls keys h).nodup]
  by_cases hkey : key ∈ keys
  · rw [if_pos hkey, Option.filter_eq_some_iff, Fields.get?_eq_some_iff h.nodup]
    simp [dropNulls, hkey]
  · rw [if_neg hkey, Fields.get?_eq_some_iff h.nodup]
    simp [dropNulls, hkey]

theorem map_fst_normalFields (fields : Fields) :
    (normalFields fields).map Prod.fst = fields.map Prod.fst := by
  induction fields with
  | nil => rfl
  | cons field fields ih => rw [normalFields, List.map_cons, List.map_cons, ih]

theorem isSorted_normalFields (h : Fields.IsSorted fields) :
    Fields.IsSorted (normalFields fields) := by
  rwa [Fields.IsSorted, map_fst_normalFields]

theorem get?_normalFields (fields : Fields) (key : String) :
    Fields.get? (normalFields fields) key = (Fields.get? fields key).map (normalField key) := by
  induction fields with
  | nil => rfl
  | cons field fields ih =>
      obtain ⟨first, value⟩ := field
      rw [normalFields, Fields.get?_cons, Fields.get?_cons, ih]
      split
      · next h => rw [h]; rfl
      · rfl

theorem isSorted_withChildren (h : Fields.IsSorted fields) :
    Fields.IsSorted (withChildren fields) := by
  unfold withChildren
  split
  · exact h
  · exact Fields.isSorted_insert h

theorem get?_withChildren (fields : Fields) (key : String) :
    Fields.get? (withChildren fields) key =
      if key = "children" then some ((Fields.get? fields "children").getD (.array []))
      else Fields.get? fields key := by
  unfold withChildren
  split
  · next value h =>
      by_cases hkey : key = "children"
      · rw [if_pos hkey, hkey, h]; rfl
      · rw [if_neg hkey]
  · next h => rw [Fields.get?_insert, h]; rfl

/-! ### Fields of trees that were read -/

theorem AreExtra.nodup_append {known : List String} {extra : Fields} (h : AreExtra known extra)
    (hknown : known.Nodup) (hsub : (fields.map Prod.fst).Sublist known) :
    ((fields ++ extra).map Prod.fst).Nodup := by
  rw [List.map_append, List.nodup_append]
  refine ⟨hknown.sublist hsub, h.sorted.nodup, fun key hkey other hother heq => ?_⟩
  obtain ⟨field, hfield, rfl⟩ := List.mem_map.mp hother
  exact h.unknown field hfield (heq ▸ hsub.subset hkey)

theorem AreExtra.get?_eq_none {known : List String} {extra : Fields} (h : AreExtra known extra)
    (hkey : key ∈ known) : Fields.get? extra key = none :=
  Fields.get?_eq_none fun field hfield heq => h.unknown field hfield (heq ▸ hkey)

theorem AreExtra.map_sorted {known : List String} {extra : Fields} (h : AreExtra known extra)
    (key : String) : (Fields.get? extra key).map Value.sorted = Fields.get? extra key := by
  cases hvalue : Fields.get? extra key with
  | none => rfl
  | some value =>
      have hmem := (Fields.get?_eq_some_iff h.sorted.nodup).mp hvalue
      rw [Option.map_some, (h.values _ hmem).sorted_eq]

/-- Sorted fields, and what is found in them in normal form. -/
structure Finds (norm : String → Value → Value) (fields : Fields)
    (lookup : String → Option Value) : Prop where
  sorted : Fields.IsSorted fields
  get? : ∀ key, (Fields.get? fields key).map (norm key) = lookup key

theorem Finds.insert {norm : String → Value → Value} {lookup next : String → Option Value}
    {value : Value} (h : Finds norm fields lookup)
    (hnext : ∀ k, next k = if k = key then some (norm key value) else lookup k) :
    Finds norm (Fields.insert key value fields) next := by
  refine ⟨Fields.isSorted_insert h.sorted, fun k => ?_⟩
  rw [Fields.get?_insert, hnext, ← h.get?]
  split
  · next hk => rw [hk, Option.map_some]
  · rfl

end

/-! ### Attributes -/

theorem Attribute.nodup_fields {a : Attribute} (h : a.IsRead) :
    (a.fields.map Prod.fst).Nodup := by
  refine AreExtra.nodup_append h (by decide) ?_
  cases a.value <;> simp [optionalField, attributeKeys]

/-- What stands under a key in the sorted document of an attribute. -/
theorem Attribute.get?_sorted_fields {a : Attribute} (h : a.IsRead) (key : String) :
    (Fields.get? a.fields key).map Value.sorted =
      if key = "name" then some (.string a.name)
      else if key = "value" then a.value.map .string
      else Fields.get? a.extra key := by
  rw [Attribute.fields, Fields.get?_append, Fields.get?_cons, get?_optionalField]
  by_cases hname : key = "name"
  · simp [hname, Value.sorted]
  by_cases hvalue : key = "value"
  · have hextra : Fields.get? a.extra "value" = none := h.get?_eq_none (by decide)
    cases a.value <;> simp [hvalue, hextra, Value.sorted]
  · simpa [hname, hvalue] using AreExtra.map_sorted h key

/-- What a draft has under a key. -/
def AttributeDraft.lookup (draft : AttributeDraft) (key : String) : Option Value :=
  if key = "name" then draft.name.map .string
  else if key = "value" then draft.value.map (orNull .string)
  else Fields.get? draft.extra key

/-- A draft has what the plain fields of the same text have. -/
structure AttributeDraft.Follows (draft : AttributeDraft) (fields : Fields) : Prop where
  extra : AreExtra attributeKeys draft.extra
  finds : Finds (fun _ value => value) fields draft.lookup

theorem AttributeDraft.Follows.sorted_toValue {draft : AttributeDraft} {fields : Fields}
    {name : String} (h : draft.Follows fields) (hname : draft.name = some name) :
    normalAttribute (.object fields) =
      (Attribute.toValue ⟨name, draft.value.join, draft.extra⟩).sorted := by
  have hread : Attribute.IsRead ⟨name, draft.value.join, draft.extra⟩ := h.extra
  refine (Value.sorted_object (Attribute.nodup_fields hread)
    (isSorted_dropNulls _ h.finds.sorted) fun key => ?_).symm
  have hfields : Fields.get? fields key = draft.lookup key := by
    rw [← h.finds.get?, Option.map_id']
  rw [get?_dropNulls _ h.finds.sorted, hfields, Attribute.get?_sorted_fields hread,
    AttributeDraft.lookup]
  by_cases hkey : key = "name"
  · simp [hkey, hname]
  by_cases hvalue : key = "value"
  · rcases draft.value with _ | _ | s <;> simp [hvalue, orNull]
  · simp [hkey, hvalue]

theorem AttributeDraft.tracks_gather (budget : Nat) :
    Tracks (gather (Value.reader budget)) (Value.reader budget) Follows
      fun a v => normalAttribute v = a.toValue.sorted where
  start := ⟨areExtra_nil _, .nil, fun key => by simp [gather, lookup, Fields.get?]⟩
  field := by
    intro draft fields key r hdraft hr
    simp only [gather] at hr
    split at hr
    · next hkey =>
        split at hr <;> cases hr
        refine (mirrors_string budget).map fun s v hv => ⟨hdraft.extra, hdraft.finds.insert ?_⟩
        intro k
        by_cases hk : k = "name" <;> simp [lookup, hk, hkey, hv]
    split at hr
    · next hkey =>
        split at hr <;> cases hr
        have hvalue : Mirrors Reader.string.nullable (Value.reader budget)
            fun found v => v = orNull .string found := (mirrors_string budget).nullable rfl
        refine hvalue.map fun s v hv => ⟨hdraft.extra, hdraft.finds.insert ?_⟩
        intro k
        by_cases hk : k = "value" <;> simp [lookup, hk, hkey, hv]
    · next hname hvalue =>
        cases hr
        refine ((mirrors_self _).and (Value.yields_reader budget)).map fun v w hv => ?_
        obtain ⟨hread, rfl⟩ := hv
        refine ⟨hdraft.extra.insert (by simp [attributeKeys, hname, hvalue]) hread,
          hdraft.finds.insert fun k => ?_⟩
        by_cases hk : k = key <;> simp [lookup, Fields.get?_insert, hk, hname, hvalue]
  finish := by
    intro draft fields a hdraft ha
    simp only [gather] at ha
    split at ha <;> cases ha
    next name hname => exact hdraft.sorted_toValue hname

/-- Whatever is read as an attribute is written as it was, in normal form. -/
theorem Attribute.mirrors_reader (budget : Nat) :
    Mirrors (Attribute.reader budget) (Value.reader budget)
      fun a v => normalAttribute v = a.toValue.sorted := by
  cases budget with
  | zero => exact mirrors_object_refused _ _ _ _
  | succ budget => exact (AttributeDraft.tracks_gather budget).mirrors_object _

theorem Attribute.mirrors_listReader (budget : Nat) :
    Mirrors (Attribute.listReader budget) (Value.reader budget) fun as v =>
      normalField "attrs" v = .array (as.map fun a => a.toValue.sorted) := by
  have hlist : Mirrors (Attribute.listReader budget) (Value.reader budget) fun as v =>
      ∃ items, v = .array items ∧
        (as.map fun a => a.toValue.sorted) = items.map normalAttribute := by
    refine mirrors_array fun r hr => ?_
    cases budget with
    | zero => cases hr
    | succ budget =>
        cases hr
        refine ⟨budget, rfl, fun s a t hrun => ?_⟩
        obtain ⟨v, hv, hrel⟩ := Attribute.mirrors_reader budget s a t hrun
        exact ⟨v, hv, hrel.symm⟩
  intro s as t hrun
  obtain ⟨v, hv, items, rfl, hitems⟩ := hlist s as t hrun
  exact ⟨_, hv, (normalField_attributes items).trans (congrArg Value.array hitems.symm)⟩

/-! ### Nodes -/

theorem Kind.name_ofName (name : String) : (Kind.ofName name).name = name := by
  by_cases h : name = "element" <;> simp [Kind.ofName, h, Kind.name]

theorem Node.nodup_fields {node : Node} (h : AreExtra nodeKeys node.extra) :
    (node.fields.map Prod.fst).Nodup := by
  rw [Node.fields, List.append_cons]
  refine h.nodup_append (by decide) ?_
  cases node.name <;> cases node.attributes <;> cases node.value <;>
    simp [optionalField, nodeKeys]

/-- What stands under a key in the sorted document of a node. -/
theorem Node.get?_sorted_fields {node : Node} (h : AreExtra nodeKeys node.extra) (key : String) :
    (Fields.get? node.fields key).map Value.sorted =
      if key = "type" then some (.string node.kind.name)
      else if key = "name" then node.name.map .string
      else if key = "attrs" then
        node.attributes.map fun as => .array (as.map fun a => a.toValue.sorted)
      else if key = "value" then node.value.map .string
      else if key = "children" then
        some (.array (node.children.map fun child => child.toValue.sorted))
      else Fields.get? node.extra key := by
  simp only [Node.fields, Fields.get?_append, Fields.get?_cons, get?_optionalField]
  by_cases htype : key = "type"
  · simp [htype, Value.sorted]
  by_cases hname : key = "name"
  · have hextra : Fields.get? node.extra "name" = none := h.get?_eq_none (by decide)
    cases node.name <;> simp [hname, hextra, Value.sorted]
  by_cases hattrs : key = "attrs"
  · have hextra : Fields.get? node.extra "attrs" = none := h.get?_eq_none (by decide)
    cases node.attributes <;> simp [hattrs, hextra, Value.sorted_array]
  by_cases hvalue : key = "value"
  · have hextra : Fields.get? node.extra "value" = none := h.get?_eq_none (by decide)
    cases node.value <;> simp [hvalue, hextra, Value.sorted]
  by_cases hchildren : key = "children"
  · simp [hchildren, Value.sorted_array]
  · simpa [htype, hname, hattrs, hvalue, hchildren] using h.map_sorted key

/-- What a draft has under a key, in normal form. -/
def NodeDraft.lookup (draft : NodeDraft) (key : String) : Option Value :=
  if key = "type" then draft.kind.map fun kind => .string kind.name
  else if key = "name" then draft.name.map (orNull .string)
  else if key = "attrs" then
    draft.attributes.map (orNull fun as => .array (as.map fun a => a.toValue.sorted))
  else if key = "value" then draft.value.map (orNull .string)
  else if key = "children" then
    draft.children.map fun nodes => .array (nodes.map fun node => node.toValue.sorted)
  else Fields.get? draft.extra key

/-- A draft has what the plain fields of the same text have. -/
structure NodeDraft.Follows (draft : NodeDraft) (fields : Fields) : Prop where
  extra : AreExtra nodeKeys draft.extra
  finds : Finds normalField fields draft.lookup

/-- The node that a draft amounts to. -/
def NodeDraft.finished (draft : NodeDraft) (kind : Kind) : Node where
  kind
  name := draft.name.join
  attributes := draft.attributes.join
  value := draft.value.join
  children := draft.children.getD []
  extra := draft.extra

theorem NodeDraft.Follows.sorted_toValue {draft : NodeDraft} {fields : Fields} {kind : Kind}
    (h : draft.Follows fields) (hkind : draft.kind = some kind) :
    normalNode (.object fields) = (draft.finished kind).toValue.sorted := by
  have hread : AreExtra nodeKeys (draft.finished kind).extra := h.extra
  have hnormal := isSorted_normalFields h.finds.sorted
  rw [Node.toValue_eq, normalNode]
  refine (Value.sorted_object (Node.nodup_fields hread)
    (isSorted_withChildren (isSorted_dropNulls _ hnormal)) fun key => ?_).symm
  rw [get?_withChildren, get?_dropNulls _ hnormal, get?_dropNulls _ hnormal,
    get?_normalFields, get?_normalFields, h.finds.get?, h.finds.get?,
    Node.get?_sorted_fields hread, NodeDraft.finished]
  by_cases htype : key = "type"
  · simp [htype, lookup, hkind]
  by_cases hname : key = "name"
  · rcases hdraft : draft.name with _ | _ | s <;> simp [hname, lookup, hdraft, orNull]
  by_cases hattrs : key = "attrs"
  · rcases hdraft : draft.attributes with _ | _ | as <;> simp [hattrs, lookup, hdraft, orNull]
  by_cases hvalue : key = "value"
  · rcases hdraft : draft.value with _ | _ | s <;> simp [hvalue, lookup, hdraft, orNull]
  by_cases hchildren : key = "children"
  · cases hdraft : draft.children <;> simp [hchildren, lookup, hdraft]
  · simp [lookup, htype, hname, hattrs, hvalue, hchildren]

theorem NodeDraft.tracks_gather {budget : Nat} {children : Reader (List Node)}
    (hchildren : Mirrors children (Value.reader budget) fun nodes v =>
      normalField "children" v = .array (nodes.map fun node => node.toValue.sorted)) :
    Tracks (gather (Attribute.listReader budget) children (Value.reader budget))
      (Value.reader budget) Follows fun node v => normalNode v = node.toValue.sorted where
  start := ⟨areExtra_nil _, .nil, fun key => by simp [gather, lookup, Fields.get?]⟩
  field := by
    intro draft fields key r hdraft hr
    simp only [gather] at hr
    split at hr
    · next hkey =>
        split at hr <;> cases hr
        refine (mirrors_string budget).map fun s v hv => ⟨hdraft.extra, hdraft.finds.insert ?_⟩
        intro k
        by_cases hk : k = "type" <;> simp [lookup, hk, hkey, hv, normalField, Kind.name_ofName]
    split at hr
    · next hkey =>
        split at hr <;> cases hr
        have hname : Mirrors Reader.string.nullable (Value.reader budget)
            fun found v => v = orNull .string found := (mirrors_string budget).nullable rfl
        refine hname.map fun s v hv => ⟨hdraft.extra, hdraft.finds.insert ?_⟩
        intro k
        by_cases hk : k = "name" <;> cases s <;> simp [lookup, hk, hkey, hv, orNull, normalField]
    split at hr
    · next hkey =>
        split at hr <;> cases hr
        refine ((Attribute.mirrors_listReader budget).nullable rfl).map fun s v hv =>
          ⟨hdraft.extra, hdraft.finds.insert ?_⟩
        intro k
        by_cases hk : k = "attrs" <;> simp [lookup, hk, hkey, hv]
    split at hr
    · next hkey =>
        split at hr <;> cases hr
        have hname : Mirrors Reader.string.nullable (Value.reader budget)
            fun found v => v = orNull .string found := (mirrors_string budget).nullable rfl
        refine hname.map fun s v hv => ⟨hdraft.extra, hdraft.finds.insert ?_⟩
        intro k
        by_cases hk : k = "value" <;> cases s <;> simp [lookup, hk, hkey, hv, orNull, normalField]
    split at hr
    · next hkey =>
        split at hr <;> cases hr
        refine hchildren.map fun s v hv => ⟨hdraft.extra, hdraft.finds.insert ?_⟩
        intro k
        by_cases hk : k = "children" <;> simp [lookup, hk, hkey, hv]
    · next htype hname hattrs hvalue hchildren =>
        cases hr
        refine ((mirrors_self _).and (Value.yields_reader budget)).map fun v w hv => ?_
        obtain ⟨hread, rfl⟩ := hv
        refine ⟨hdraft.extra.insert ?_ hread, hdraft.finds.insert fun k => ?_⟩
        · simp [nodeKeys, htype, hname, hattrs, hvalue, hchildren]
        · by_cases hk : k = key <;>
            simp [lookup, Fields.get?_insert, hk, htype, hname, hattrs, hvalue, hchildren,
              normalField_of_other]
  finish := by
    intro draft fields node hdraft hnode
    simp only [gather] at hnode
    split at hnode <;> cases hnode
    next kind hkind => exact hdraft.sorted_toValue hkind

theorem Node.mirrors_nodeWith {budget : Nat} {child : Option (Reader Node)}
    (h : ∀ r ∈ child, ∃ less, budget = less + 1 ∧
      Mirrors r (Value.reader less) fun node v => normalNode v = node.toValue.sorted) :
    Mirrors (reader.nodeWith (budget + 1) child) (Value.reader (budget + 1))
      fun node v => normalNode v = node.toValue.sorted := by
  refine (NodeDraft.tracks_gather ?_).mirrors_object _
  have hlist : Mirrors (Reader.array child) (Value.reader budget) fun nodes v =>
      ∃ items, v = .array items ∧
        (nodes.map fun node => node.toValue.sorted) = items.map normalNode := by
    refine mirrors_array fun r hr => ?_
    obtain ⟨less, hless, hmirrors⟩ := h r hr
    refine ⟨less, hless, fun s node t hrun => ?_⟩
    obtain ⟨v, hv, hrel⟩ := hmirrors s node t hrun
    exact ⟨v, hv, hrel.symm⟩
  intro s nodes t hrun
  obtain ⟨v, hv, items, rfl, hitems⟩ := hlist s nodes t hrun
  exact ⟨_, hv, (normalField_children items).trans (congrArg Value.array hitems.symm)⟩

/-- Whatever is read as a tree is written as it was, in normal form. -/
theorem Node.mirrors_reader (budget : Nat) :
    Mirrors (Node.reader budget) (Value.reader budget)
      fun node v => normalNode v = node.toValue.sorted := by
  match budget with
  | 0 => exact mirrors_object_refused _ _ _ _
  | 1 => exact mirrors_nodeWith nofun
  | budget + 2 =>
      refine mirrors_nodeWith fun r hr => ?_
      cases hr
      exact ⟨budget, rfl, mirrors_reader budget⟩

/-- A text that is a tree is a document, too, and the tree is written as the normal form of the
value in it. -/
theorem Node.sorted_toValue_of_parse {source : String} {node : Node}
    (h : Node.parse source = .ok node) :
    ∃ value, (Value.reader maxNesting).parse source = .ok value ∧
      node.toValue.sorted = normalNode value := by
  obtain ⟨value, hvalue, hnormal⟩ := (mirrors_reader maxNesting).parse h
  exact ⟨value, hvalue, hnormal.symm⟩

/-- A node with a `null` name, an attribute with a `null` value and unknown fields, one of them
twice. -/
def nullsText : String :=
  "\x7b\"z\":1,\"type\":\"text\",\"name\":null,\"value\":\"\",\"z\":\x7b\"name\":null\x7d," ++
    "\"attrs\":[\x7b\"value\":null,\"type\":null,\"name\":\"a\"\x7d]\x7d"

def nullsNode : Node where
  kind := .other "text"
  attributes := some [⟨"a", none, [("type", .null)]⟩]
  value := some ""
  extra := [("z", .object [("name", .null)])]

theorem Node.sorted_toValue_of_parse_nulls :
    Node.parse nullsText = .ok nullsNode ∧
      ∃ value, (Value.reader maxNesting).parse nullsText = .ok value ∧
        nullsNode.toValue.sorted = normalNode value := by
  have hparse : Node.parse nullsText = .ok nullsNode := Attempt.ok_of_toOption (by decide +kernel)
  exact ⟨hparse, Node.sorted_toValue_of_parse hparse⟩

end FlexFold.Markup
