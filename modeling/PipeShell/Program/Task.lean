import PipeShell.Errno
import PipeShell.Job.WaitStatus
import PipeShell.Program.Filter
import PipeShell.Program.Script

/-!
# Tasks

What a process has still to do.  A task advances by one call to the operating
system at a time, so that processes joined by pipes can take turns.
-/

set_option autoImplicit false

namespace PipeShell

/-- An open descriptor that a filter reads. -/
structure Source where
  number : Nat
  /-- The operand that it was opened for, if there was one. -/
  name : Option Bytes
  deriving DecidableEq

inductive Task where
  | finish (status : WaitStatus)
  /-- Writes the data to a descriptor and goes on, in another way if that fails. -/
  | emit (descriptor : Nat) (data : ByteArray) (next : Task) (failed : Errno → Task)
  /-- Makes sure that a file can be written, which is made if it is not there, and goes on. -/
  | claim (path : Bytes) (next : Task)
  /-- Puts standard output on a file, made or emptied, and goes on. -/
  | divert (path : Bytes) (next : Task)
  /-- An installed program that has not begun. -/
  | start (program : String) (argv : List Bytes)
  /-- Runs a filter over the inputs still to be opened, after what the open descriptor gives.  An
  input without a name is standard input. -/
  | filter (f : Filter) (source : Option Source) (inputs : List (Option Bytes)) (code : Int)
  /-- Writes the data again and again. -/
  | repeating (data : ByteArray)
  | sleeping (deadline : Nat)
  | script (s : Script)
  /-- Reads a line for the named variables; a backslash stands for itself if it is `raw`. -/
  | reading (names : List String) (raw : Bool) (line : Bytes) (s : Script)
  /-- Reads the script itself from standard input. -/
  | loading (text : Bytes) (s : Script)
  /-- Waits for children of a script, and perhaps tells which signals ended them. -/
  | awaiting (children : List Nat) (tells : Bool) (s : Script)
  /-- Takes the output of a child, from a descriptor, for a command. -/
  | collecting (child number : Nat) (text : Bytes) (c : Command) (s : Script)

namespace Task

/-- The descriptors that a process has put aside, which stay open. -/
def aside : Task → List DescriptorTable
  | .emit _ _ next _ => aside next
  | .claim _ next => aside next
  | .divert _ next => aside next
  | .script s => s.aside
  | .reading _ _ _ s => s.aside
  | .loading _ s => s.aside
  | .awaiting _ _ s => s.aside
  | .collecting _ _ _ _ s => s.aside
  | _ => []

def exit (code : Int) : Task := .finish (.exited code)

/-- Complains on standard error and exits. -/
def complain (text : String) (code : Int) : Task :=
  .emit 2 (Text.packed (Text.encode text)) (exit code) fun _ => exit code

/-- Says something on standard error and goes on. -/
def warn (text : String) (next : Task) : Task :=
  .emit 2 (Text.packed (Text.encode text)) next fun _ => next

/-- What a program says when its output cannot be written. -/
def writeFault (program called : String) (cause : Errno) : String :=
  match program with
  | "sort" =>
    s!"{called}: fflush failed: 'standard output': {cause.description}\n{called}: write error\n"
  | "wc" => s!"{called}: write error\n"
  | "yes" => s!"{called}: standard output: {cause.description}\n"
  | _ => s!"{called}: write error: {cause.description}\n"

/-- Prints on standard output and goes on; a program that cannot ends with a complaint. -/
def print (program called : String) (data : ByteArray) (next : Task) : Task :=
  .emit 1 data next fun cause =>
    complain (writeFault program called cause) (if program = "sort" then 2 else 1)

end Task

end PipeShell
