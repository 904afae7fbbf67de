import FlexFold.Text.Split

/-!
The words of a command line: options with values, flags, and the values themselves. An option
takes its value from the rest of its word or from the words that follow it. It is only recorded
when the next option begins, so a word that is wrong in itself is reported first.
-/

namespace FlexFold.CommandLine

/-- What is wrong with a command line. -/
inductive Fault where
  | unknownWord
  | unknownCommand
  | noCommand
  /-- An option lacks its value, or a path is empty. -/
  | missingValue
  | badNumber
  /-- An option is given twice or together with one that excludes it. -/
  | conflict
  | missingOption
  /-- A flag is given a value. -/
  | unexpectedValue
deriving DecidableEq, Repr

/-- Why no command results from a command line. -/
inductive Stop where
  | help
  | version
  | fault (fault : Fault)
deriving DecidableEq, Repr

/-- What a word that begins with a hyphen stands for. -/
inductive Switch (ω φ : Type) where
  | option (o : ω)
  | flag (f : φ)
  | help
  | version

/-- The options and flags of a command, which are gathered in a state `σ`. -/
structure Grammar (ω φ σ : Type) where
  long? : String → Option (Switch ω φ)
  short? : Char → Option (Switch ω φ)
  /-- Whether an option takes all values that follow it. -/
  isGreedy : ω → Bool
  setOption : ω → List String → σ → Except Fault σ
  setFlag : φ → σ → Except Fault σ

/-- An option whose values are still being collected. -/
structure Pending (ω : Type) where
  option : ω
  values : List String := []
  /-- Whether the next value belongs to it. -/
  isOpen : Bool := true

/-- What is known after some words. -/
structure Progress (ω σ : Type) where
  state : σ
  pending : Option (Pending ω) := none
  /-- Whether `--` was met, after which nothing is an option. -/
  isTrailing : Bool := false

namespace Grammar

variable {ω φ σ : Type} (g : Grammar ω φ σ)

/-- Record the option that is pending. -/
def settle (p : Progress ω σ) : Except Stop (Progress ω σ) :=
  match p.pending with
  | none => .ok p
  | some pending =>
      match g.setOption pending.option pending.values p.state with
      | .error fault => .error (.fault fault)
      | .ok state => .ok { p with state, pending := none }

/-- Begin an option, or record it with a value that is attached to it. -/
def beginOption (o : ω) (value : Option String) (p : Progress ω σ) :
    Except Stop (Progress ω σ) := do
  let p ← g.settle p
  match value with
  | none => .ok { p with pending := some { option := o } }
  | some v => g.settle { p with pending := some { option := o, values := [v] } }

def raiseFlag (f : φ) (p : Progress ω σ) : Except Stop (Progress ω σ) := do
  let p ← g.settle p
  match g.setFlag f p.state with
  | .error fault => .error (.fault fault)
  | .ok state => .ok { p with state }

/-- A word that begins with two hyphens, without them. -/
def longWord (word : List Char) (p : Progress ω σ) : Except Stop (Progress ω σ) :=
  let name := String.ofList (word.takeWhile (· ≠ '='))
  let value := match word.dropWhile (· ≠ '=') with
    | _ :: value => some (String.ofList value)
    | [] => none
  match g.long? name with
  | none => .error (.fault .unknownWord)
  | some (.option o) => g.beginOption o value p
  | some (.flag f) => if value.isSome then .error (.fault .unexpectedValue) else g.raiseFlag f p
  | some .help =>
      if value.isSome then .error (.fault .unexpectedValue)
      else g.settle p >>= fun _ => .error .help
  | some .version =>
      if value.isSome then .error (.fault .unexpectedValue)
      else g.settle p >>= fun _ => .error .version

/-- A word that begins with one hyphen, without it: flags and at the end perhaps an option. -/
def shortWord : List Char → Progress ω σ → Except Stop (Progress ω σ)
  | [], p => .ok p
  | c :: rest, p =>
      match g.short? c with
      | none => .error (.fault .unknownWord)
      | some (.option o) =>
          let value := match rest with
            | [] => none
            | '=' :: value => some (String.ofList value)
            | value => some (String.ofList value)
          g.beginOption o value p
      | some (.flag f) =>
          match g.raiseFlag f p with
          | .error stop => .error stop
          | .ok p => shortWord rest p
      | some .help => g.settle p >>= fun _ => .error .help
      | some .version => g.settle p >>= fun _ => .error .version

def valueWord (word : String) (p : Progress ω σ) : Except Stop (Progress ω σ) :=
  match p.pending with
  | some pending =>
      if pending.isOpen then
        .ok { p with
          pending := some { pending with
            values := pending.values ++ [word]
            isOpen := g.isGreedy pending.option } }
      else .error (.fault .unknownWord)
  | none => .error (.fault .unknownWord)

/-- One word. A hyphen alone is a value. -/
def word (text : String) (p : Progress ω σ) : Except Stop (Progress ω σ) :=
  if p.isTrailing then .error (.fault .unknownWord)
  else
    match text.toList with
    | ['-', '-'] => .ok { p with isTrailing := true }
    | '-' :: '-' :: name => g.longWord name p
    | '-' :: c :: rest => g.shortWord (c :: rest) p
    | _ => g.valueWord text p

def words : List String → Progress ω σ → Except Stop (Progress ω σ)
  | [], p => g.settle p
  | text :: texts, p =>
      match g.word text p with
      | .error stop => .error stop
      | .ok p => words texts p

def parse (start : σ) (texts : List String) : Except Stop σ :=
  (g.words texts { state := start }).map Progress.state

end Grammar

end FlexFold.CommandLine
