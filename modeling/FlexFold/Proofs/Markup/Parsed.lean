import FlexFold.Markup.Document
import FlexFold.Proofs.Json.Yields
import FlexFold.Proofs.Markup.Walk

/-!
Trees that were parsed. What their unknown fields hold and how their kinds are spelled is not
changed when the tree is folded.
-/

namespace FlexFold.Markup

open Json (Value Fields Number Reader)
open Json.Reader (Keeps yields_trivial yields_array)

/-! ### Unknown fields -/

/-- The fields that an attribute knows. -/
def attributeKeys : List String := ["name", "value"]

/-- The fields that a node knows. -/
def nodeKeys : List String := ["type", "name", "attrs", "value", "children"]

/-- Fields that were read and that are none of the known ones. -/
structure AreExtra (known : List String) (fields : Fields) : Prop
    extends Fields.AreRead fields where
  unknown : ∀ field ∈ fields, field.1 ∉ known

theorem areExtra_nil (known : List String) : AreExtra known [] := ⟨⟨.nil, nofun⟩, nofun⟩

theorem AreExtra.insert {known : List String} {fields : Fields} {key : String} {value : Value}
    (h : AreExtra known fields) (hkey : key ∉ known) (hvalue : value.IsRead) :
    AreExtra known (Fields.insert key value fields) := by
  refine ⟨h.toAreRead.insert hvalue, fun field hmem => ?_⟩
  rcases Fields.mem_insert hmem with rfl | hmem
  · exact hkey
  · exact h.unknown field hmem

/-- Some field holds a number. -/
def FieldsHold (x : Number) (fields : Fields) : Prop := ∃ field ∈ fields, field.2.Holds x

/-- A number stands in an unknown field of a node, of its attributes or of a node below it. -/
inductive Node.Holds (x : Number) : Node → Prop where
  | own {node : Node} (h : FieldsHold x node.extra) : Holds x node
  | inAttribute {node : Node} {as : List Attribute} {a : Attribute} (has : as ∈ node.attributes)
      (ha : a ∈ as) (h : FieldsHold x a.extra) : Holds x node
  | inChild {node child : Node} (hchild : child ∈ node.children) (h : Holds x child) :
      Holds x node

/-! ### What a reader returns -/

def Attribute.IsRead (a : Attribute) : Prop := AreExtra attributeKeys a.extra

/-- The trees that a reader returns. -/
inductive Node.IsRead : Node → Prop where
  | node {node : Node} (kind : Kind.ofName node.kind.name = node.kind)
      (attributes : ∀ as ∈ node.attributes, ∀ a ∈ as, a.IsRead)
      (children : ∀ child ∈ node.children, IsRead child) (extra : AreExtra nodeKeys node.extra) :
      IsRead node

theorem Kind.ofName_name_ofName (name : String) :
    Kind.ofName (Kind.ofName name).name = .ofName name := by
  by_cases h : name = "element" <;> simp [Kind.ofName, h, Kind.name]

theorem AttributeDraft.keeps_gather {other : Reader Value} (h : other.Yields Value.IsRead) :
    Keeps (gather other) (fun draft => AreExtra attributeKeys draft.extra)
      Attribute.IsRead where
  start := areExtra_nil attributeKeys
  field := by
    intro draft key r hdraft hr
    simp only [gather] at hr
    split at hr
    · split at hr <;> cases hr
      exact (yields_trivial _).map fun _ _ => hdraft
    split at hr
    · split at hr <;> cases hr
      exact (yields_trivial _).map fun _ _ => hdraft
    · next hname hvalue =>
        cases hr
        exact h.map fun v hv => hdraft.insert (by simp [attributeKeys, hname, hvalue]) hv
  finish := by
    intro draft a hdraft ha
    simp only [gather] at ha
    split at ha <;> cases ha
    exact hdraft

theorem Attribute.yields_reader (budget : Nat) : (Attribute.reader budget).Yields IsRead :=
  (AttributeDraft.keeps_gather (Value.yields_reader _)).yields_object _ _

theorem Attribute.yields_listReader (budget : Nat) :
    (Attribute.listReader budget).Yields fun as => ∀ a ∈ as, a.IsRead := by
  refine yields_array fun r hr => ?_
  split at hr <;> cases hr
  exact Attribute.yields_reader _

/-- What the fields of a node that were met so far have in common with those of a tree. -/
structure NodeDraft.IsRead (draft : NodeDraft) : Prop where
  kind : ∀ k ∈ draft.kind, Kind.ofName k.name = k
  attributes : ∀ found ∈ draft.attributes, ∀ as ∈ found, ∀ a ∈ as, a.IsRead
  children : ∀ nodes ∈ draft.children, ∀ node ∈ nodes, node.IsRead
  extra : AreExtra nodeKeys draft.extra

theorem NodeDraft.keeps_gather {attributes : Reader (List Attribute)}
    {children : Reader (List Node)} {other : Reader Value}
    (hattributes : attributes.Yields fun as => ∀ a ∈ as, a.IsRead)
    (hchildren : children.Yields fun nodes => ∀ node ∈ nodes, node.IsRead)
    (hother : other.Yields Value.IsRead) :
    Keeps (gather attributes children other) IsRead Node.IsRead where
  start := ⟨nofun, nofun, nofun, areExtra_nil nodeKeys⟩
  field := by
    intro draft key r hdraft hr
    simp only [gather] at hr
    split at hr
    · split at hr <;> cases hr
      refine (yields_trivial _).map fun name _ => { hdraft with kind := fun k hk => ?_ }
      cases hk
      exact Kind.ofName_name_ofName name
    split at hr
    · split at hr <;> cases hr
      exact (yields_trivial _).map fun _ _ => { hdraft with }
    split at hr
    · split at hr <;> cases hr
      refine hattributes.nullable.map fun found hfound =>
        { hdraft with attributes := fun v hv => ?_ }
      cases hv
      exact hfound
    split at hr
    · split at hr <;> cases hr
      exact (yields_trivial _).map fun _ _ => { hdraft with }
    split at hr
    · split at hr <;> cases hr
      refine hchildren.map fun nodes hnodes => { hdraft with children := fun v hv => ?_ }
      cases hv
      exact hnodes
    · next htype hname hattrs hvalue hchildren =>
        cases hr
        refine hother.map fun v hv => { hdraft with extra := hdraft.extra.insert ?_ hv }
        simp [nodeKeys, htype, hname, hattrs, hvalue, hchildren]
  finish := by
    intro draft node hdraft hnode
    simp only [gather] at hnode
    split at hnode
    · cases hnode
    · next kind hkind =>
        cases hnode
        refine .node (hdraft.kind kind hkind) ?_ ?_ hdraft.extra
        · intro as has
          exact hdraft.attributes _ (Option.join_eq_some_iff.mp has) as rfl
        · intro child hchild
          cases hnodes : draft.children with
          | none => simp [hnodes] at hchild
          | some nodes =>
              rw [hnodes] at hchild
              exact hdraft.children nodes hnodes child hchild

theorem Node.yields_nodeWith {budget : Nat} {child : Option (Reader Node)}
    (h : ∀ r ∈ child, r.Yields IsRead) : (reader.nodeWith budget child).Yields IsRead :=
  (NodeDraft.keeps_gather (Attribute.yields_listReader _) (yields_array h)
    (Value.yields_reader _)).yields_object _ _

theorem Node.yields_reader (budget : Nat) : (Node.reader budget).Yields IsRead := by
  match budget with
  | 0 => exact yields_nodeWith nofun
  | 1 => exact yields_nodeWith nofun
  | budget + 2 =>
      refine yields_nodeWith fun r hr => ?_
      cases hr
      exact yields_reader budget

theorem Node.isRead_of_parse {source : String} {node : Node} (h : Node.parse source = .ok node) :
    node.IsRead :=
  (yields_reader Json.maxNesting).of_parse h

/-! ### What a fold keeps -/

theorem Attribute.isRead_of_mem_foldedList {as : List Attribute} (has : ∀ a ∈ as, a.IsRead) :
    ∀ a ∈ foldedList as, a.IsRead := by
  intro a ha
  rw [Attribute.IsRead]
  rcases Fold.extra_of_mem_attributes ha with hextra | ⟨b, hb, hextra⟩
  · rw [hextra]
    exact areExtra_nil attributeKeys
  · rw [hextra]
    exact has b hb

theorem Node.IsRead.folded {node : Node} (h : node.IsRead) : node.folded.IsRead := by
  induction h with
  | @node node kind attributes children extra ih =>
      rw [folded_eq]
      refine .node kind ?_ ?_ extra
      · intro as has
        obtain ⟨bs, hbs, rfl⟩ := Option.map_eq_some_iff.mp has
        exact Attribute.isRead_of_mem_foldedList (attributes bs hbs)
      · intro child hchild
        obtain ⟨c, hc, rfl⟩ := List.mem_map.mp hchild
        split
        · exact ih c hc
        · exact children c hc

/-- No number comes in with a fold. -/
theorem Node.holds_of_holds_folded {x : Number} {node : Node} (h : node.folded.Holds x) :
    node.Holds x := by
  induction node using Node.induction with
  | step node ih =>
      rw [folded_eq] at h
      cases h with
      | own h => exact .own h
      | @inAttribute _ as a has ha h =>
          obtain ⟨bs, hbs, rfl⟩ := Option.map_eq_some_iff.mp has
          rcases Fold.extra_of_mem_attributes ha with hextra | ⟨b, hb, hextra⟩
          · rw [hextra] at h
            obtain ⟨_, hmem, _⟩ := h
            cases hmem
          · rw [hextra] at h
            exact .inAttribute hbs hb h
      | @inChild _ c hc h =>
          obtain ⟨d, hd, rfl⟩ := List.mem_map.mp hc
          split at h
          · exact .inChild hd (ih d hd h)
          · exact .inChild hd h

end FlexFold.Markup
