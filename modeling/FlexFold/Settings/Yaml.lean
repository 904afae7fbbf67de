import FlexFold.Decimal.Digits
import FlexFold.Settings.Document
import FlexFold.Yaml.Document

/-!
Settings as YAML documents. A scalar of any form is a string, but only plain ones are truth values
and numbers, and literal ones that are tagged so. What is left out at the end of a line counts as an
empty list or an empty part.
-/

namespace FlexFold.Settings

open Yaml (Node Fault)

/-! ### Values -/

def yamlString (root node : Node) : Except Fault String :=
  match root.resolve node with
  | .scalar _ _ _ text => .ok text
  | _ => .error (.wrongType "a string")

/-- The text of a scalar that may be a value with some tag: it is plain, or literal with that very
tag. -/
def taggedText? (tag : String) (root node : Node) : Option String :=
  match root.resolve node with
  | .scalar _ _ .plain text => some text
  | .scalar _ (some own) .literal text => if own = .ofString tag then some text else none
  | _ => none

def yamlBoolean (root node : Node) : Except Fault Bool :=
  match taggedText? "tag:yaml.org,2002:bool" root node with
  | some "true" | some "True" | some "TRUE" => .ok true
  | some "false" | some "False" | some "FALSE" => .ok false
  | _ => .error (.wrongType "a boolean")

/-- The number that some digits to a base spell. -/
def digitsToBase? (base : Nat) (digits : List Char) : Option Nat :=
  if digits = [] then none
  else
    digits.foldlM (fun n c =>
      match Yaml.hexDigit? c with
      | some d => if d < base then some (n * base + d) else none
      | none => none) 0

/-- A number below `2 ^ 64`: decimal without a leading zero, or with the sign of its base. A plus
sign may stand in front. -/
def naturalOfText? (text : String) : Option Nat :=
  let cs := text.toList
  let cs := if cs.head? = some '+' then cs.tail else cs
  let number := match cs with
    | '0' :: 'x' :: digits => digitsToBase? 16 digits
    | '0' :: 'o' :: digits => digitsToBase? 8 digits
    | '0' :: 'b' :: digits => digitsToBase? 2 digits
    | '0' :: _ :: _ => none
    | digits => digitsToBase? 10 digits
  number.filter fun n => n ≤ Decimal.maxWord

def yamlNatural (root node : Node) : Except Fault Nat :=
  match (taggedText? "tag:yaml.org,2002:int" root node).bind naturalOfText? with
  | some n => .ok n
  | none => .error (.wrongType "u64")

def yamlStrings (root node : Node) : Except Fault (List String) :=
  match root.resolve node with
  | .sequence _ items => items.mapM (yamlString root)
  | .scalar _ _ .plain "" => .ok []
  | _ => .error (.wrongType "a sequence")

/-! ### Parts -/

/-- A known field of a part that is gathered in a state `σ`. -/
structure YamlField (σ : Type) where
  name : String
  isSet : σ → Bool
  read : Node → σ → Except Fault σ

/-- Gather the fields of a part one by one. Unknown fields are skipped. -/
def yamlEntries {σ : Type} (root : Node) (fields : List (YamlField σ)) (state : σ) :
    List (Node × Node) → Except Fault σ
  | [] => .ok state
  | (key, value) :: entries =>
      match yamlString root key with
      | .error e => .error e
      | .ok name =>
          match fields.find? fun field => field.name = name with
          | none => yamlEntries root fields state entries
          | some field =>
              if field.isSet state then .error (.duplicateField name)
              else
                match field.read value state with
                | .error e => .error e
                | .ok state => yamlEntries root fields state entries

/-- A part with fields. -/
def yamlPart {σ : Type} (root : Node) (name : String) (fields : List (YamlField σ)) (start : σ)
    (node : Node) : Except Fault σ :=
  match root.resolve node with
  | .mapping _ entries => yamlEntries root fields start entries
  | .scalar _ _ .plain "" => .ok start
  | _ => .error (.wrongType ("struct " ++ name))

def yamlOutput (root node : Node) : Except Fault OutputDraft :=
  yamlPart root "OutputConfig" [
    { name := "pretty"
      isSet := fun draft => draft.pretty.isSome
      read := fun value draft =>
        (yamlBoolean root value).map fun b => { draft with pretty := some b } }] {} node

/-- The part about the files that may be read. -/
def yamlSecurity (root node : Node) : Except Fault SecurityDraft :=
  yamlPart root "SecurityConfig" [
    { name := "max_file_size"
      isSet := fun draft => draft.maxFileSize.isSome
      read := fun value draft =>
        (yamlNatural root value).map fun n => { draft with maxFileSize := some n } },
    { name := "allow_symlinks"
      isSet := fun draft => draft.allowSymlinks.isSome
      read := fun value draft =>
        (yamlBoolean root value).map fun b => { draft with allowSymlinks := some b } }] {} node

def yamlDraft (root : Node) : Except Fault Draft :=
  yamlPart root "MigratorConfig" [
    { name := "content"
      isSet := fun draft => draft.content.isSome
      read := fun value draft =>
        (yamlStrings root value).map fun ps => { draft with content := some ps } },
    { name := "exclude"
      isSet := fun draft => draft.exclude.isSome
      read := fun value draft =>
        (yamlStrings root value).map fun ps => { draft with exclude := some ps } },
    { name := "output"
      isSet := fun draft => draft.output.isSome
      read := fun value draft =>
        (yamlOutput root value).map fun o => { draft with output := some o } },
    { name := "security"
      isSet := fun draft => draft.security.isSome
      read := fun value draft =>
        (yamlSecurity root value).map fun s => { draft with security := some s } }] {} root

/-- Read a YAML document. A text without a document stands for the defaults. -/
def parseYaml (workingDirectory : Location) (source : String) : Except Fault Settings :=
  match Yaml.parse source with
  | .error e => .error e
  | .ok none => .ok (ofDraft workingDirectory {})
  | .ok (some root) => (yamlDraft root).map (ofDraft workingDirectory)

end FlexFold.Settings
