import FlexFold.Text.Blank

/-!
The utility classes of one element: an ordered list of tokens without repetition. A token keeps
the place of its first occurrence.
-/

namespace FlexFold

/-- The tokens of a `class` attribute in order, each once. -/
structure ClassList where
  tokens : List String
  nodup : tokens.Nodup
deriving DecidableEq

namespace ClassList

def empty : ClassList := ⟨[], List.nodup_nil⟩

instance : Inhabited ClassList := ⟨empty⟩

def contains (list : ClassList) (token : String) : Bool := list.tokens.contains token

/-- Put a token at the end, unless it is present. -/
def push (list : ClassList) (token : String) : ClassList :=
  if h : token ∈ list.tokens then list
  else
    { tokens := list.tokens ++ [token]
      nodup := List.nodup_append.2 ⟨list.nodup, by simp, by
        intro a ha b hb e
        simp only [List.mem_singleton] at hb
        exact h (hb ▸ e ▸ ha)⟩ }

def pushAll (list : ClassList) (tokens : List String) : ClassList := tokens.foldl push list

def ofTokens (tokens : List String) : ClassList := empty.pushAll tokens

/-- The tokens of an attribute value: its words, each at its first occurrence. -/
def parse (value : String) : ClassList := ofTokens (Text.words value)

/-- Push the trimmed texts that are not blank. Blanks inside a text stay. -/
def extend (list : ClassList) (texts : List String) : ClassList :=
  list.pushAll ((texts.map Text.trim).filter (· ≠ ""))

/-- Put `new` where `old` stands. If both are present, the earlier place survives. -/
def replace (list : ClassList) (old new : String) : ClassList :=
  if list.contains old then ofTokens (list.tokens.map fun t => if t = old then new else t)
  else list

/-- The attribute value that spells the list. -/
def text (list : ClassList) : String := Text.spaced list.tokens

def size (list : ClassList) : Nat := list.tokens.length

def isEmpty (list : ClassList) : Bool := list.tokens.isEmpty

/-- Whether two lists hold the same tokens in any order. -/
def sameTokens (a b : ClassList) : Bool :=
  a.size == b.size && a.tokens.all b.contains

end ClassList

end FlexFold
