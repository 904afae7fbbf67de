import FlexFold.Glob.Pattern
import FlexFold.Store.Basic

/-!
The paths of a store that a pattern selects. Every component of the pattern is matched with one
component of a path, and `**` with any number of directories. Paths are spelled as the pattern
leads to them, and the entries of a directory come in the order of their names.
-/

namespace FlexFold

structure Glob where
  isAbsolute : Bool
  components : List Glob.Pattern
  /-- Whether only directories are selected. -/
  directoriesOnly : Bool
deriving DecidableEq, Repr

/-- A directory that could not be listed. -/
structure GlobError where
  path : Path
  fault : StoreFault
deriving DecidableEq, Repr

def GlobError.message (e : GlobError) : String :=
  "attempting to read `" ++ e.path.text ++ "` resulted in an error: " ++ e.fault.message

namespace Glob

/-! ### Reading -/

/-- The components of a pattern that does not begin at the root. What follows the last slash is
none if it is empty. -/
def componentTexts (text : List Char) : List String :=
  let pieces := (Text.split '/' text).reverse
  let pieces := match pieces with
    | [] :: rest => rest
    | _ => pieces
  pieces.reverse.map String.ofList

/-- Read a pattern. It has to be one as a whole as well as component by component. -/
def parse (text : String) : Except PatternFault Glob :=
  match Pattern.parse text with
  | .error e => .error e
  | .ok _ =>
      let cs := text.toList
      let isAbsolute := cs.head? == some '/'
      let inner := if isAbsolute then cs.drop 1 else cs
      let texts := if inner = [] then [""] else componentTexts inner
      match texts.mapM Pattern.parse with
      | .error e => .error e
      | .ok components =>
          .ok { isAbsolute, components, directoriesOnly := cs.getLast? == some '/' }

/-! ### Searching -/

/-- A path that was reached. -/
structure Reached where
  path : Path
  isDirectory : Bool

/-- What is left to do in a search. -/
inductive Task where
  /-- Nothing is left: this path is selected. -/
  | selected (here : Reached)
  /-- Match the last component of a path, and go on from there. -/
  | pending (here : Reached) (components : List Pattern)
  | failed (e : GlobError)

def reach (store : Store) (path : Path) : Reached := ⟨path, store.isDirectory path⟩

/-- Whether a path is the one that relative searches begin with. It is not spelled in the paths
that are found. -/
def isStart (path : Path) : Bool := path.same ⟨"."⟩

/-- The path of a name in a directory. -/
def child (directory : Path) (name : String) : Path :=
  if isStart directory then ⟨name⟩ else directory.join name

/-- Reach an entry of a directory. -/
def reachChild (store : Store) (directory : Path) (location : Location) (name : String) :
    Reached where
  path := child directory name
  isDirectory := match store.entry? (location ++ [name]) with
    | some .directory => true
    | some (.link _) => store.isDirectory (child directory name)
    | _ => false

/-- The entries of a directory in the order of their names. -/
def entries (store : Store) (refusals : Refusals) (directory : Path) :
    Except GlobError (List Reached) :=
  match refusals directory, store.locate true directory with
  | some fault, _ => .error ⟨directory, fault⟩
  | none, .ok (.entry location .directory) =>
      .ok ((store.names location).map (reachChild store directory location))
  | none, .ok (.entry _ _) => .error ⟨directory, .notDirectory⟩
  | none, .ok (.free _) => .error ⟨directory, .noEntry⟩
  | none, .error fault => .error ⟨directory, fault⟩

/-- The names that every directory has and no listing shows. A pattern finds them only if it
begins with a dot. -/
def hiddenNames (p : Pattern) : List String :=
  if p.tokens.head? = some (.char '.') then ["..", "."].filter p.matchesText else []

/-- Search below a path for some components. A component without wildcards is looked up, for any
other one the directory is listed. -/
def search (store : Store) (refusals : Refusals) : List Pattern → Reached → List Task
  | [], _ => []
  | p :: rest, here =>
      let goOn (path : Path) : List Task :=
        if rest.isEmpty then [.selected (reach store path)]
        else search store refusals rest (reach store path)
      match p.literal? with
      | some name =>
          let next := child here.path name
          if name = "." ∨ name = ".." then
            if here.isDirectory then goOn next else []
          else if store.isPresent next then goOn next
          else []
      | none =>
          if here.isDirectory then
            match entries store refusals here.path with
            | .error e => [.failed e]
            | .ok found =>
                (hiddenNames p).flatMap (fun name => goOn (here.path.join name)) ++
                  found.map fun entry => .pending entry (p :: rest)
          else []

def dropRepeated : List Pattern → List Pattern
  | p :: q :: rest => if q.isRecursive then dropRepeated (q :: rest) else p :: q :: rest
  | ps => ps

/-- The paths that a task selects in a search of at most `depth` levels. -/
def run (store : Store) (refusals : Refusals) (directoriesOnly : Bool) :
    (depth : Nat) → Task → List (Except GlobError Path)
  | _, .failed e => [.error e]
  | _, .selected here =>
      if directoriesOnly && !here.isDirectory then [] else [.ok here.path]
  | 0, .pending _ _ => []
  | depth + 1, .pending here components =>
      let below (components : List Pattern) : List (Except GlobError Path) :=
        (search store refusals components here).flatMap (run store refusals directoriesOnly depth)
      let matched (components : List Pattern) : List (Except GlobError Path) :=
        match components, here.path.fileName? with
        | p :: rest, some name =>
            if p.matchesText name then
              if rest.isEmpty then
                if directoriesOnly && !here.isDirectory then [] else [.ok here.path]
              else below rest
            else []
        | _, _ => []
      match components with
      | [] => []
      | p :: rest =>
          if p.isRecursive then
            match dropRepeated (p :: rest) with
            | [] => []
            | last :: after =>
                if here.isDirectory then
                  if after.isEmpty then .ok here.path :: below [last]
                  else matched after ++ below (last :: after)
                else matched after
          else matched (p :: rest)

/-- A bound on the levels of a search. Between two links a path goes down at most once for every
entry, and a component that lists no directory is used up. -/
def depthBound (store : Store) (components : List Pattern) : Nat :=
  (Store.maxLinks + 1) * (store.entries.entries.length + 1) + components.length + 1

/-- The paths that a pattern selects, in order. -/
def paths (store : Store) (glob : Glob) (refusals : Refusals := fun _ => none) :
    List (Except GlobError Path) :=
  (search store refusals glob.components
      (reach store ⟨if glob.isAbsolute then "/" else "."⟩)).flatMap
    (run store refusals glob.directoriesOnly (depthBound store glob.components))

end Glob

end FlexFold
