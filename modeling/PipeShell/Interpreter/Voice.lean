import PipeShell.Machine.Process

/-!
# What a script says

How a script goes on after a command: quietly, with something to say, or not at
all because it cannot.
-/

set_option autoImplicit false

namespace PipeShell.Machine

def goOn (m : Machine) (p : Running) (s : Script) : Machine := m.resume p (.script s)

/-- What a script says about a line of it, in the name of a command of its own. -/
def remark (s : Script) (line : Nat) (text : String) : ByteArray :=
  Text.packed (s.name ++ Text.encode s!": {line}: {text}\n")

/-- What the text under way says about a line of it. -/
def remarkOfText (s : Script) (line : Nat) (text : String) : ByteArray :=
  let speaker := (s.label.map fun label => Text.decodeLossy label ++ ": ").getD ""
  remark s line (speaker ++ text)

/-- Says something on standard error and goes on. -/
def say (m : Machine) (p : Running) (s : Script) (text : ByteArray) : Machine :=
  m.resume p (.emit 2 text (.script s) fun _ => .script s)

/-- Says something and ends the script. -/
def giveUp (m : Machine) (p : Running) (s : Script) (text : ByteArray) (status : Nat) : Machine :=
  m.say p { s with todo := [.exit status] } text

/-- The script after a command with a status. -/
def settle (s : Script) (status : Nat) : Script :=
  let s := { s with status, substituted := none }
  if status ≠ 0 && s.has 'e' && !s.isTested then { s with todo := [.exit status] } else s

/-- What a command of the interpreter itself has to say. -/
structure Answer where
  output : Bytes
  complaints : List String
  status : Nat

def Answer.quiet (status : Nat) : Answer := ⟨[], [], status⟩

/-- A complaint, and the status that goes with it. -/
def Answer.wrong (text : String) : Answer := ⟨[], [text], 2⟩

/-- Gives the answer of a command and goes on. -/
def answer (m : Machine) (p : Running) (s : Script) (line : Nat) (name : String) (a : Answer) :
    Machine :=
  let remarks := a.complaints.map fun text => remark s line s!"{name}: {text}"
  let next := fun (status : Nat) (text : ByteArray) =>
    let after := Task.script (settle s status)
    Task.emit 2 text after fun _ => after
  m.resume p (.emit 1 (Text.packed a.output) (next a.status (remarks.foldl (· ++ ·) .empty))
    fun _ => next 1 (remark s line s!"{name}: {name}: I/O error"))

end PipeShell.Machine
