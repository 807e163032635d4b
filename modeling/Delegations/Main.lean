import Delegations.Command

/-! The program: arguments and standard input in, answer or error message out. -/

partial def Delegations.Command.readToEnd (stream : IO.FS.Stream) (before : ByteArray) :
    IO ByteArray := do
  let chunk ← stream.read 65536
  if chunk.isEmpty then return before else readToEnd stream (before ++ chunk)

def main (arguments : List String) : IO UInt32 := do
  let input ← Delegations.Command.readToEnd (← IO.getStdin) .empty
  let outcome := Delegations.Command.run Delegations.Text.Hex.codec arguments input
  (← IO.getStdout).putStr outcome.output
  (← IO.getStderr).putStr outcome.errors
  return outcome.exitCode
