import PipeShell.Builtin
import PipeShell.Wiring

/-!
# Launchers

A launcher starts the stages of a pipeline and waits for what it started.  It
may keep a state of its own beside the shell.  Everything that evaluates a line
works with any launcher; the one that starts processes is in
`PipeShell.Job.Launch`, and one that starts nothing in `PipeShell.Rehearsal`.
-/

set_option autoImplicit false

namespace PipeShell

/-- A process that was started and not waited for. -/
structure Handle where
  pid : Nat
  program : String
  deriving DecidableEq, Repr

/-- What became of a stage. -/
inductive Launched where
  | process (handle : Handle)
  /-- The stage was a builtin, which has already run. -/
  | builtin (flow : Flow)
  deriving DecidableEq, Repr

structure Launcher (σ : Type) where
  /-- Starts a stage.  The connection belongs to the launcher. -/
  launch : Stage → Connection → Shell × σ → Except ShellError Launched × (Shell × σ)
  wait : Handle → Shell × σ → Except Errno WaitStatus × (Shell × σ)

namespace Shell

/-- Closes what a connection owns. -/
def disconnect (sh : Shell) (c : Connection) : Shell :=
  { sh with machine := sh.machine.disconnect c }

def disconnectAll (sh : Shell) (connections : List Connection) : Shell :=
  connections.foldl disconnect sh

end Shell

end PipeShell
