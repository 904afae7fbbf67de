import FlexFold.Json.Message
import FlexFold.Json.Record
import FlexFold.Settings.Basic

/-!
Settings as JSON documents. Every field may be missing, and the working directory is no part of
the document.
-/

namespace FlexFold.Settings

open Json (Record Reader)

/-- What a document says about the output. -/
structure OutputDraft where
  pretty : Option Bool := none

/-- How the part about the output is read. -/
def outputRecord : Record OutputDraft OutputDraft where
  name := "OutputConfig"
  fields := [
    .slot "pretty" OutputDraft.pretty (fun draft b => { draft with pretty := some b })
      Reader.boolean]
  start := {}
  finish := .ok
  lenient := true

/-- What a document says about the files that may be read. -/
structure SecurityDraft where
  maxFileSize : Option Nat := none
  allowSymlinks : Option Bool := none

/-- How the part about the files is read. -/
def securityRecord : Record SecurityDraft SecurityDraft where
  name := "SecurityConfig"
  fields := [
    .slot "max_file_size" SecurityDraft.maxFileSize
      (fun draft n => { draft with maxFileSize := some n }) (Reader.natural "u64"),
    .slot "allow_symlinks" SecurityDraft.allowSymlinks
      (fun draft b => { draft with allowSymlinks := some b }) Reader.boolean]
  start := {}
  finish := .ok
  lenient := true

/-- What a document says. -/
structure Draft where
  content : Option (List String) := none
  exclude : Option (List String) := none
  output : Option OutputDraft := none
  security : Option SecurityDraft := none

/-- The settings of a document, with the default for what it does not say. -/
def ofDraft (workingDirectory : Location) (draft : Draft) : Settings :=
  let defaults : Settings := { workingDirectory }
  { content := draft.content.getD defaults.content
    exclude := draft.exclude.getD defaults.exclude
    pretty := (draft.output.bind OutputDraft.pretty).getD defaults.pretty
    maxFileSize := (draft.security.bind SecurityDraft.maxFileSize).getD defaults.maxFileSize
    allowSymlinks := (draft.security.bind SecurityDraft.allowSymlinks).getD defaults.allowSymlinks
    workingDirectory }

def record (workingDirectory : Location) : Record Draft Settings where
  name := "MigratorConfig"
  fields := [
    .slot "content" Draft.content (fun draft ps => { draft with content := some ps })
      (Reader.array (some Reader.string)),
    .slot "exclude" Draft.exclude (fun draft ps => { draft with exclude := some ps })
      (Reader.array (some Reader.string)),
    .slot "output" Draft.output (fun draft o => { draft with output := some o })
      outputRecord.reader,
    .slot "security" Draft.security (fun draft s => { draft with security := some s })
      securityRecord.reader]
  start := {}
  finish draft := .ok (ofDraft workingDirectory draft)
  lenient := true

def parseJson (workingDirectory : Location) (source : String) : Except Json.Error Settings :=
  (record workingDirectory).reader.parse source

end FlexFold.Settings
