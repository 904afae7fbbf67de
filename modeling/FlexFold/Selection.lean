import FlexFold.Failure

/-!
Which files a run rewrites: those that an input pattern leads to and no exclusion matches, if they
may be read. Each file is selected once, in the order in which the patterns lead to it.
-/

namespace FlexFold

/-- A file that was selected. -/
structure Selected where
  path : Path
  size : Nat
deriving DecidableEq, Repr

namespace Selection

/-- Whether a link may be followed: only if the settings allow it, and only to what stands in the
working directory. -/
def mayFollow (store : Store) (settings : Settings) (path : Path) : Bool :=
  settings.allowSymlinks &&
    (store.canonical? path).any settings.workingDirectory.isPrefixOf

/-- The size of a file that may be read. -/
def readableSize? (store : Store) (settings : Settings) (path : Path) : Option Nat :=
  if store.isLink path && !mayFollow store settings path then none
  else (store.size? path).filter fun size => size ≤ settings.maxFileSize

/-- Whether an exclusion matches a path. -/
def isExcluded (exclude : List Glob.Pattern) (path : Path) : Bool :=
  exclude.any fun p => p.matchesText path.text

/-- Consider a path that a pattern leads to, after some files were selected. -/
def consider (store : Store) (settings : Settings) (exclude : List Glob.Pattern)
    (selected : List Selected) (path : Path) : List Selected :=
  if isExcluded exclude path || store.isDirectory path then selected
  else
    match readableSize? store settings path with
    | none => selected
    | some size =>
        if selected.any fun file => file.path.same path then selected
        else selected ++ [{ path, size }]

/-- Consider what a search leads to. -/
def considerAll (store : Store) (settings : Settings) (exclude : List Glob.Pattern) :
    List Selected → List (Except GlobError Path) → Except Failure (List Selected)
  | selected, [] => .ok selected
  | _, .error e :: _ => .error (.search e)
  | selected, .ok path :: found =>
      considerAll store settings exclude (consider store settings exclude selected path) found

/-- Consider what the input patterns lead to, one after the other. -/
def considerPatterns (store : Store) (refusals : Refusals) (settings : Settings)
    (exclude : List Glob.Pattern) : List Selected → List String → Except Failure (List Selected)
  | selected, [] => .ok selected
  | selected, text :: texts =>
      match Glob.parse text with
      | .error fault => .error (.pattern fault)
      | .ok glob =>
          match considerAll store settings exclude selected (glob.paths store refusals) with
          | .error failure => .error failure
          | .ok selected => considerPatterns store refusals settings exclude selected texts

def files (store : Store) (settings : Settings) (refusals : Refusals := fun _ => none) :
    Except Failure (List Selected) :=
  match settings.exclude.mapM Glob.Pattern.parse with
  | .error fault => .error (.pattern fault)
  | .ok exclude => considerPatterns store refusals settings exclude [] settings.content

end Selection

end FlexFold
