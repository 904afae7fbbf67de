import FlexFold.CommandLine.Disk
import FlexFold.CommandLine.Execute
import Std.Time.DateTime.Timestamp

/-!
The program: it parses its command line, loads what the command may read, executes the command
and writes back what was changed.
-/

namespace FlexFold.CommandLine

partial def readAll (stream : IO.FS.Stream) (before : ByteArray) : IO ByteArray := do
  let chunk ← stream.read 65536
  if chunk.isEmpty then return before
  readAll stream (before ++ chunk)

def now : IO Timestamp := do
  let time ← Std.Time.Timestamp.now
  return { seconds := time.val.second.val, nanos := time.val.nano.val.toNat }

/-- Print an outcome and return its exit code. -/
def report (outcome : Outcome) : IO UInt32 := do
  IO.print outcome.standardOutput
  IO.eprint outcome.standardError
  return outcome.exitCode

def runProgram (arguments : List String) : IO UInt32 := do
  match parse (← IO.getEnv configVariable) arguments with
  | .error stop => report (.ofStop stop)
  | .ok command =>
      let begin ← IO.monoMsNow
      let input ← if command.readsInput then readAll (← IO.getStdin) .empty else pure .empty
      let before ← if command.readsInput then pure (.ofWorkingDirectory [])
        else Disk.loadFor command
      let clock : Clock := { now := ← now, elapsed := (← IO.monoMsNow) - begin }
      let (outcome, after) := execute clock input command before
      Disk.save before after
      report outcome

end FlexFold.CommandLine

def main (arguments : List String) : IO UInt32 := FlexFold.CommandLine.runProgram arguments
