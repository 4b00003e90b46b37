/-!
# How a process ended

What waiting for a process answers, and the exit code that a status counts as:
its own for a process that exited, 128 and the signal for one that a signal
ended, and 0 for one that has not ended.
-/

set_option autoImplicit false

namespace PipeShell

inductive WaitStatus where
  | exited (code : Int)
  | signaled (signal : Int)
  | stopped (signal : Int)
  | continued
  deriving DecidableEq, Repr

namespace WaitStatus

def code : WaitStatus → Int
  | exited code => code
  | signaled signal => 128 + signal
  | stopped _ => 0
  | continued => 0

/-- The largest number of a signal that has a name. -/
def lastNamedSignal : Int := 31

/-- Waiting can report the status.  Signals without a name are not known to it. -/
def isKnown : WaitStatus → Bool
  | exited _ => true
  | signaled signal => signal ≤ lastNamedSignal
  | stopped signal => signal ≤ lastNamedSignal
  | continued => true

/-- The status of a child that could not turn into its program although one was found. -/
def notExecutable : Int := 126

/-- The status of a child for which no program was found. -/
def notFound : Int := 127

def killed : WaitStatus := .signaled 9

/-- A process that writes to a pipe nobody reads is ended by this signal. -/
def brokenPipe : WaitStatus := .signaled 13

end WaitStatus

end PipeShell
