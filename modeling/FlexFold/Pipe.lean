import FlexFold.Failure

/-!
Rewriting one tree from the standard input to the standard output.
-/

namespace FlexFold.Pipe

/-- The name of the standard input in errors. -/
def sourceName : String := "stdin"

/-- What is printed for some bytes. A blank input is no tree and prints nothing. -/
def rewrite (compact : Bool) (bytes : ByteArray) : Except Failure String :=
  match Text.decode bytes with
  | .error fault => .error (.input fault)
  | .ok text =>
      if Text.isBlankText text then .ok ""
      else
        match Source.rewrite (if compact then .compact else .pretty)
            { name := sourceName, text } with
        | .error error => .error (.badTree error)
        | .ok done => .ok (done.text ++ "\n")

end FlexFold.Pipe
