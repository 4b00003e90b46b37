import PipeShell.Installation
import PipeShell.Invocation

/-!
# The program

Runs the shell on a machine of its own, whose standard input is that of the
program, and prints what arrived on its output.
-/

set_option autoImplicit false

namespace PipeShell

/-- The environment of a shell that nobody has configured. -/
def plainEnvironment : Environment :=
  Dictionary.ofList [("HOME", Text.encode "/root"), ("PATH", Text.encode "/usr/bin:/bin")]

/-- All that a stream holds, read piece by piece. -/
partial def readToEnd (stream : IO.FS.Stream) (held : ByteArray) : IO ByteArray := do
  let piece ← stream.read 65536
  if piece.isEmpty then return held
  readToEnd stream (held ++ piece)

end PipeShell

open PipeShell in
/-- Runs the shell on the input of the program. -/
def main (arguments : List String) : IO UInt32 := do
  let input ← readToEnd (← IO.getStdin) .empty
  let invocation : Invocation :=
    { arguments, input := .ok input.data.toList, interactive := false }
  let start := Installation.machine Installation.files FileSystem.root plainEnvironment
  let (code, machine) := invocation.run start
  (← IO.getStdout).write machine.output
  (← IO.getStderr).write machine.errors
  return code.toUInt32
