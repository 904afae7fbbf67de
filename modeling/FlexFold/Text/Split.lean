/-!
Splitting a text at a separator. The pieces with the separator between each two of them are the
text again, and there is always at least one.
-/

namespace FlexFold.Text

/-- The pieces of a text between the occurrences of `sep`. -/
def split (sep : Char) : List Char → List (List Char)
  | [] => [[]]
  | c :: text =>
      if c = sep then [] :: split sep text
      else
        match split sep text with
        | [] => [[c]]
        | piece :: pieces => (c :: piece) :: pieces

/-- The pieces with a separator between each two of them. -/
def join (sep : Char) (pieces : List (List Char)) : List Char := [sep].intercalate pieces

theorem split_ne_nil (sep : Char) (text : List Char) : split sep text ≠ [] := by
  cases text with
  | nil => simp [split]
  | cons c text =>
      rw [split]
      split
      · simp
      · split <;> simp

end FlexFold.Text
