import FlexFold.CommandLine.Command
import FlexFold.Store.Basic

/-!
Stores and the disk. What a command may read is loaded before it is executed, and what it has
changed is written back afterwards.
-/

namespace FlexFold.CommandLine.Disk

def pathOf (location : Location) : String := "/" ++ "/".intercalate location

/-- The location of an absolute path without links. -/
def locationOf (path : String) : Location :=
  ((Path.mk path).pieces.filter (· ≠ [])).map String.ofList

/-- The location of what a path leads to in the end. -/
def locate (path : String) : IO Location := do
  return locationOf (← IO.FS.realPath path).toString

/-- Put the directories that lead to a location. -/
def putParents (location : Location) (store : Store) : Store :=
  (List.range location.length).foldl (fun store n =>
    match store.entry? (location.take n) with
    | none => store.put (location.take n) .directory
    | some _ => store) store

/-- The entry of a link. A link to nothing leads to itself. -/
def linkEntry (location : Location) : IO Entry := do
  try
    return .link ⟨pathOf (← locate (pathOf location))⟩
  catch _ =>
    return .link ⟨pathOf location⟩

mutual

/-- Load a directory and everything below it. What cannot be read is left out. -/
partial def loadDirectory (location : Location) (store : Store) : IO Store := do
  let mut loaded := if location.isEmpty then store else store.put location .directory
  for entry in ← (← IO.FS.realPath (pathOf location)).readDir do
    try loaded ← loadEntry (location ++ [entry.fileName]) entry loaded
    catch _ => pure ()
  return loaded

partial def loadEntry (location : Location) (entry : IO.FS.DirEntry) (store : Store) :
    IO Store := do
  match (← entry.path.symlinkMetadata).type with
  | .file => return store.put location (.file (← IO.FS.readBinFile entry.path))
  | .symlink => return store.put location (← linkEntry location)
  | .dir => loadDirectory location store
  | .other => return store

end

/-- Load what stands at a location that no link leads to. -/
def load (location : Location) (store : Store) : IO Store := do
  try
    return store.put location (.file (← IO.FS.readBinFile (pathOf location)))
  catch _ =>
    try loadDirectory location store
    catch _ => return store

/-- The part of a pattern that holds no wildcard. -/
def fixedPart (text : String) : Path :=
  let isFixed (piece : List Char) : Bool := !piece.any fun c => "*?[".contains c
  .ofPieces ((Path.mk text).pieces.takeWhile isFixed)

/-- Whether a path may lead out of the working directory. -/
def leavesDirectory (path : Path) : Bool := path.isAbsolute || path.pieces.contains ['.', '.']

/-- The paths outside the working directory that a command may read or write. -/
def outerPaths : Command → List Path
  | .pipe _ => []
  | .rewrite request =>
      (request.input.map fixedPart ++ request.config.toList ++ request.outDir.toList ++
        request.manifest.toList).filter leavesDirectory

def loadFor (command : Command) : IO Store := do
  let directory ← locate "."
  let mut store ← load directory (.ofWorkingDirectory directory)
  for path in outerPaths command do
    try
      let location ← locate path.text
      store ← load location (putParents location store)
    catch _ => pure ()
  return store

def save (before after : Store) : IO Unit := do
  for (location, entry) in after.entries.entries do
    let present := before.entry? location
    if present ≠ some entry then
      match entry with
      | .directory => IO.FS.createDirAll (pathOf location)
      | .file bytes =>
          if let some (.link _) := present then IO.FS.removeFile (pathOf location)
          IO.FS.writeBinFile (pathOf location) bytes
      | .link _ => pure ()
  for location in before.entries.keys do
    if (after.entry? location).isNone then IO.FS.removeFile (pathOf location)

end FlexFold.CommandLine.Disk
