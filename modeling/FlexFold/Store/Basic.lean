import FlexFold.FirstSeen
import FlexFold.Store.Path
import FlexFold.Text.Utf8

/-!
A store of files, directories and symbolic links, and how a path leads through it. Every entry
stands at one location; a path finds its entry from the working directory, and each link on the
way is followed, though not more than `maxLinks` of them.
-/

namespace FlexFold

/-- The names that lead from the root to an entry. -/
abbrev Location := List String

inductive Entry where
  | file (bytes : ByteArray)
  | directory
  | link (target : Path)

/-- Entries are compared part by part, files byte by byte. -/
def Entry.decEq : (a b : Entry) → Decidable (a = b)
  | .file ⟨a⟩, .file ⟨b⟩ => decidable_of_iff (a = b) (by simp)
  | .directory, .directory => isTrue rfl
  | .link a, .link b => decidable_of_iff (a = b) (by simp)
  | .file _, .directory | .file _, .link _ | .directory, .file _ | .directory, .link _
  | .link _, .file _ | .link _, .directory => isFalse (by simp)

instance : DecidableEq Entry := Entry.decEq

inductive StoreFault where
  | noEntry
  | denied
  | busy
  | exists
  | notDirectory
  | isDirectory
  | nameTooLong
  | tooManyLinks
  /-- No name has a zero byte. -/
  | zeroByte
  /-- The bytes of a file are no text. -/
  | noText
deriving DecidableEq, Repr

def StoreFault.message : StoreFault → String
  | .noEntry => "No such file or directory (os error 2)"
  | .denied => "Permission denied (os error 13)"
  | .busy => "Device or resource busy (os error 16)"
  | .exists => "File exists (os error 17)"
  | .notDirectory => "Not a directory (os error 20)"
  | .isDirectory => "Is a directory (os error 21)"
  | .nameTooLong => "File name too long (os error 36)"
  | .tooManyLinks => "Too many levels of symbolic links (os error 40)"
  | .zeroByte => "file name contained an unexpected NUL byte"
  | .noText => "stream did not contain valid UTF-8"

/-- What a system refuses: for every path, why its file may not be read or its directory may not
be listed, if that is so. -/
abbrev Refusals := Path → Option StoreFault

/-- Entries by location, and the directory where relative paths begin. The root is a directory
and has no entry. -/
structure Store where
  entries : FirstSeen Location Entry
  workingDirectory : Location
deriving DecidableEq

namespace Store

def entry? (store : Store) (location : Location) : Option Entry :=
  if location = [] then some .directory else store.entries.get? location

def put (store : Store) (location : Location) (entry : Entry) : Store :=
  { store with entries := store.entries.insert location entry }

def remove (store : Store) (location : Location) : Store :=
  { store with entries := store.entries.erase location }

/-- The names that stand in a directory, sorted. -/
def names (store : Store) (directory : Location) : List String :=
  (store.entries.keys.filterMap fun location =>
    match location.getLast? with
    | some name => if location.dropLast = directory then some name else none
    | none => none).mergeSort fun a b => a ≤ b

/-- A store with nothing but a working directory and the directories around it. -/
def ofWorkingDirectory (location : Location) : Store where
  entries := (List.range location.length).foldl
    (fun entries n => entries.insert (location.take (n + 1)) .directory) ∅
  workingDirectory := location

/-! ### Walking -/

/-- One step of a walk. -/
inductive Stride where
  | stay
  | up
  | down (name : String)
deriving DecidableEq, Repr

/-- The step that a component of a path stands for. -/
def Stride.ofPiece (piece : List Char) : Stride :=
  if piece = ['.'] then .stay
  else if piece = ['.', '.'] then .up
  else .down (String.ofList piece)

/-- The steps of a path. A path that ends in a slash has to lead to a directory, just as if it
ended in `/.`. -/
def strides (path : Path) : List Stride :=
  (path.pieces.filter (· ≠ [])).map Stride.ofPiece ++
    if path.text.toList.getLast? = some '/' then [.stay] else []

/-- Where a walk begins. -/
def start (store : Store) (path : Path) : Location :=
  if path.isAbsolute then [] else store.workingDirectory

/-- Where a walk ends. -/
inductive Spot where
  /-- At an entry. It is a link only if links at the end are not followed. -/
  | entry (location : Location) (entry : Entry)
  /-- At a name that is free, in a directory. -/
  | free (location : Location)
deriving DecidableEq

/-- The length of a name in bytes that is too long. -/
def nameLimit : Nat := 256

/-- The length of a path in bytes that is too long. -/
def pathLimit : Nat := 4096

/-- Walk from a directory, and go on with `jump` at a link. -/
def walkWith (store : Store) (follow : Bool)
    (jump : Location → List Stride → Except StoreFault Spot) :
    Location → List Stride → Except StoreFault Spot
  | here, [] => .ok (.entry here .directory)
  | here, .stay :: rest => walkWith store follow jump here rest
  | here, .up :: rest => walkWith store follow jump here.dropLast rest
  | here, .down name :: rest =>
      if nameLimit ≤ name.utf8ByteSize then .error .nameTooLong
      else
        match store.entry? (here ++ [name]) with
        | none => if rest = [] then .ok (.free (here ++ [name])) else .error .noEntry
        | some .directory => walkWith store follow jump (here ++ [name]) rest
        | some (.file bytes) =>
            if rest = [] then .ok (.entry (here ++ [name]) (.file bytes)) else .error .notDirectory
        | some (.link target) =>
            if rest = [] ∧ !follow then .ok (.entry (here ++ [name]) (.link target))
            else jump (if target.isAbsolute then [] else here) (strides target ++ rest)

/-- Walk from a directory over at most `links` links. -/
def walk (store : Store) (follow : Bool) :
    (links : Nat) → Location → List Stride → Except StoreFault Spot
  | 0 => walkWith store follow fun _ _ => .error .tooManyLinks
  | links + 1 => walkWith store follow (walk store follow links)

/-- The number of links that a walk may follow. -/
def maxLinks : Nat := 40

/-- A path that can be walked at all. -/
def checkPath (path : Path) : Except StoreFault Unit :=
  if path.text.toList.contains '\x00' then .error .zeroByte
  else if path.text.toList = [] then .error .noEntry
  else if pathLimit ≤ path.text.utf8ByteSize then .error .nameTooLong
  else .ok ()

/-- Where a path leads. A link at its end is followed if `follow` is set. -/
def locate (store : Store) (follow : Bool) (path : Path) : Except StoreFault Spot :=
  match checkPath path with
  | .error e => .error e
  | .ok () => store.walk follow maxLinks (store.start path) (strides path)

/-! ### Looking -/

/-- The entry that a path leads to, and where it stands. -/
def find? (store : Store) (follow : Bool) (path : Path) : Option (Location × Entry) :=
  match store.locate follow path with
  | .ok (.entry location entry) => some (location, entry)
  | _ => none

/-- Whether a path leads to a directory. -/
def isDirectory (store : Store) (path : Path) : Bool :=
  match store.find? true path with
  | some (_, .directory) => true
  | _ => false

/-- Whether a path leads to a link that is not followed. -/
def isLink (store : Store) (path : Path) : Bool :=
  match store.find? false path with
  | some (_, .link _) => true
  | _ => false

/-- Whether a path leads to anything, be it a link to nothing. -/
def isPresent (store : Store) (path : Path) : Bool := (store.find? false path).isSome

/-- The location of what a path leads to in the end. -/
def canonical? (store : Store) (path : Path) : Option Location :=
  (store.find? true path).map Prod.fst

/-- The size in bytes of the file that a path leads to. -/
def size? (store : Store) (path : Path) : Option Nat :=
  match store.find? true path with
  | some (_, .file bytes) => some bytes.size
  | some _ => some 0
  | none => none

/-- The text of the file that a path leads to. -/
def readText (store : Store) (path : Path) : Except StoreFault String :=
  match store.locate true path with
  | .error e => .error e
  | .ok (.free _) => .error .noEntry
  | .ok (.entry _ (.file bytes)) =>
      match Text.decode bytes with
      | .ok text => .ok text
      | .error _ => .error .noText
  | .ok (.entry _ _) => .error .isDirectory

/-- The text of a file, unless the system refuses to read it. -/
def readAllowed (store : Store) (refusals : Refusals) (path : Path) : Except StoreFault String :=
  match refusals path with
  | some fault => .error fault
  | none => store.readText path

end Store

end FlexFold
