import FlexFold.Store.Basic

/-!
Changing a store. Each single step either succeeds or leaves the store as it was; what takes
several steps may fail after some of them.
-/

namespace FlexFold.Store

/-- What may change a store and may fail. A failure keeps what was changed before it. -/
abbrev Task (ε α : Type) := EStateM ε Store α

/-- A task of one step. -/
def Task.ofStep (step : Store → Except StoreFault Store) : Task StoreFault Unit := fun store =>
  match step store with
  | .ok changed => .ok () changed
  | .error e => .error e store

/-! ### Single steps -/

/-- Write a file. A file that is there is overwritten, and links are followed. -/
def writeFile (path : Path) (bytes : ByteArray) (store : Store) : Except StoreFault Store :=
  match store.locate true path with
  | .error e => .error e
  | .ok (.free location) => .ok (store.put location (.file bytes))
  | .ok (.entry location (.file _)) => .ok (store.put location (.file bytes))
  | .ok (.entry _ _) => .error .isDirectory

def makeDirectory (store : Store) (path : Path) : Except StoreFault Store :=
  match store.locate false path with
  | .error e => .error e
  | .ok (.free location) => .ok (store.put location .directory)
  | .ok (.entry _ _) => .error .exists

/-- The directory that a path stands in, and its last step. -/
def locateParent (store : Store) (path : Path) : Except StoreFault (Location × Stride) :=
  match checkPath path with
  | .error e => .error e
  | .ok () =>
      let steps := (path.pieces.filter (· ≠ [])).map Stride.ofPiece
      match steps.getLast? with
      | none => .ok ([], .stay)
      | some last =>
          let before := steps.dropLast
          match store.walk true maxLinks (store.start path)
              (if before = [] then [] else before ++ [.stay]) with
          | .error e => .error e
          | .ok (.entry location .directory) => .ok (location, last)
          | .ok (.entry _ _) => .error .notDirectory
          | .ok (.free _) => .error .noEntry

/-- Give a file or a link another path. A file or a link that is there is replaced, and a link at
the end of either path is not followed. Directories stay where they are. -/
def rename (old new : Path) (store : Store) : Except StoreFault Store :=
  match store.locate false old with
  | .error e => .error e
  | .ok (.free _) => .error .noEntry
  | .ok (.entry _ .directory) => .error .isDirectory
  | .ok (.entry source entry) =>
      match store.locateParent new with
      | .error e => .error e
      | .ok (directory, .down name) =>
          if nameLimit ≤ name.utf8ByteSize then .error .nameTooLong
          else if new.text.toList.getLast? = some '/' then .error .notDirectory
          else
            match store.entry? (directory ++ [name]) with
            | some .directory => .error .isDirectory
            | _ =>
                if directory ++ [name] = source then .ok store
                else .ok ((store.remove source).put (directory ++ [name]) entry)
      | .ok (_, _) => .error .busy

/-! ### Tasks -/

/-- The paths from `path` upwards, at most `count` of them. The empty path is none of them. -/
def ancestors (path : Path) : (count : Nat) → List Path
  | 0 => []
  | count + 1 =>
      if path.text = "" then []
      else
        path :: match path.parent? with
          | some parent => ancestors parent count
          | none => []

/-- Make the first of some directories, each of which stands in the next one, and first of all
those above it that are missing. A directory that is there already is fine. -/
def makeChain : List Path → Task StoreFault Unit
  | [], store => .ok () store
  | path :: above, store =>
      let unlessPresent (e : StoreFault) (store : Store) : EStateM.Result StoreFault Store Unit :=
        if store.isDirectory path then .ok () store else .error e store
      match store.makeDirectory path with
      | .ok store => .ok () store
      | .error .noEntry =>
          match makeChain above store with
          | .error e store => .error e store
          | .ok () store =>
              match store.makeDirectory path with
              | .ok store => .ok () store
              | .error e => unlessPresent e store
      | .error e => unlessPresent e store

/-- Make a directory and every directory above it that is missing. -/
def makeDirectories (path : Path) : Task StoreFault Unit :=
  makeChain (ancestors path (path.pieces.length + 1))

/-- The path of the temporary file beside a path. -/
def temporary (path : Path) : Path := path.withFileName (path.fileName?.getD "" ++ ".tmp")

/-- Write a file under a temporary name, then rename it. -/
def replaceFile (path : Path) (bytes : ByteArray) : Task StoreFault Unit := do
  Task.ofStep (writeFile (temporary path) bytes)
  Task.ofStep (rename (temporary path) path)

end FlexFold.Store
