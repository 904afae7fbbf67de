import FlexFold.Text.Split

/-!
Paths as they are written. A path keeps its text; two texts name the same path if they have the
same components, which leave out repeated slashes and every `.` but a leading one.
-/

namespace FlexFold

structure Path where
  text : String
deriving DecidableEq, Repr

namespace Path

def pieces (path : Path) : List (List Char) := Text.split '/' path.text.toList

/-- Whether the path begins at the root. -/
def isAbsolute (path : Path) : Bool := path.text.toList.head? == some '/'

/-- Whether a piece leads nowhere. -/
def isIdle (piece : List Char) : Bool := piece == [] || piece == ['.']

/-- Drop idle pieces from the front, but not the last piece. -/
def dropIdle : List (List Char) → List (List Char)
  | [] => []
  | [piece] => [piece]
  | piece :: pieces => if isIdle piece then dropIdle pieces else piece :: pieces

/-- The pieces back to front, from the last one that is not idle. -/
def backward (path : Path) : List (List Char) := dropIdle path.pieces.reverse

/-- The text of some pieces, of which the first may stand for the root. -/
def ofPieces (pieces : List (List Char)) : Path :=
  if pieces = [[]] then ⟨"/"⟩ else ⟨String.ofList (Text.join '/' pieces)⟩

/-- The components of the path. A leading `.` counts. -/
def components (path : Path) : List (List Char) :=
  match path.pieces with
  | [] => []
  | first :: rest => (if first = [] then [] else [first]) ++ rest.filter fun piece => !isIdle piece

/-- Whether two texts name the same path. -/
def same (a b : Path) : Bool := a.isAbsolute == b.isAbsolute && a.components == b.components

/-- The name of what the path leads to, unless it ends in `..`, in a lone `.` or at the root. -/
def fileName? (path : Path) : Option String :=
  match path.backward with
  | name :: _ => if isIdle name || name == ['.', '.'] then none else some (String.ofList name)
  | [] => none

/-- The path without its last component. -/
def parent? (path : Path) : Option Path :=
  match path.backward with
  | [] => none
  | [piece] => if piece = [] then none else some ⟨""⟩
  | _ :: rest => some (ofPieces (dropIdle rest).reverse)

/-- Go on from a path. -/
def join (path : Path) (next : String) : Path :=
  if next.toList.head? = some '/' then ⟨next⟩
  else
    match path.text.toList.getLast? with
    | none => ⟨next⟩
    | some c => if c = '/' then ⟨path.text ++ next⟩ else ⟨path.text ++ "/" ++ next⟩

/-- The path with another file name. A path without one gets it at the end. -/
def withFileName (path : Path) (name : String) : Path :=
  match path.fileName?, path.parent? with
  | some _, some parent => parent.join name
  | _, _ => path.join name

/-- What follows the last dot of the file name, unless the name begins with it. -/
def extension? (path : Path) : Option String :=
  match path.fileName? with
  | none => none
  | some name =>
      match (Text.split '.' name.toList).reverse with
      | last :: piece :: pieces =>
          if piece = [] ∧ pieces = [] then none else some (String.ofList last)
      | _ => none

end Path

end FlexFold
