import PipeShell.Machine
import PipeShell.Program.Installed

/-!
# Processes

How a process goes on, begins and ends, and the files that it opens.
-/

set_option autoImplicit false

namespace PipeShell.Machine

/-- The process goes on with a task. -/
def resume (m : Machine) (p : Running) (task : Task) : Machine :=
  { m with
    running := m.running.map fun other => if other.pid = p.pid then { p with task } else other }

/-- The process is gone, and its descriptors with it. -/
def conclude (m : Machine) (pid : Nat) (status : WaitStatus) : Machine :=
  { m with
    running := m.running.filter fun process => process.pid ≠ pid
    ended := m.ended ++ [(pid, status)] }

/-- Ends every process of a group. -/
def killGroup (m : Machine) (group : Nat) : Machine :=
  (m.roster.pidsOf group).foldl (fun m pid =>
    if m.running.any fun process => process.pid = pid then m.conclude pid .killed else m) m

/-- A new process with a number of its own, in a group of its own or that of another process. -/
def start (m : Machine) (group : Nat) (make : Nat → Running) : Nat × Machine :=
  let pid := m.nextPid
  (pid, { m with
    nextPid := pid + 1
    roster := m.roster.fork pid group
    running := m.running ++ [make pid] })

/-- A copy of a process, in its group, with a task and descriptors of its own. -/
def fork (m : Machine) (p : Running) (table : DescriptorTable) (task : Task) : Nat × Machine :=
  let group := (m.roster.groupOf? p.pid).getD m.shellGroup
  m.start group fun pid => { p with pid, table, task }

/-- Opens a file in a process. -/
def openFor (m : Machine) (p : Running) (table : DescriptorTable) (path : Bytes)
    (access : Access) (append : Bool) : Except Errno (Nat × DescriptorTable × Machine) :=
  let opened : Except Errno (FileSystem × Nat × Nat) := match access with
    | .reading => (m.files.findReadable p.cwd path).map fun id => (m.files, id, 0)
    | .writing =>
      match append, m.files.findForWriting p.cwd path with
      | true, .ok (.node id) => .ok (m.files, id, (m.files.content id).size)
      | _, _ =>
        (m.files.recreate p.cwd path (modeUnder p.mask)).map fun (files, id) => (files, id, 0)
  match opened with
  | .error cause => .error cause
  | .ok (files, id, place) =>
    let file := OpenFile.node id access m.cursors.size
    match table.open? m.limit { file, closeOnExec := false } with
    | none => .error .tooManyOpen
    | some (number, table) =>
      .ok (number, table, { m with files, cursors := m.cursors.push place })

/-- A descriptor on an end of a pipe. -/
def pipeEnd (id : Nat) (access : Access) : Descriptor :=
  { file := .pipe id access, closeOnExec := false }

/-- A pipe that holds a text. -/
def makePipe (m : Machine) (content : ByteArray) : Nat × Machine :=
  (m.pipes.size, { m with pipes := m.pipes.push content })

/-! ## Inputs of programs -/

/-- The operand stands for standard input. -/
def isDash (name : Option Bytes) : Bool := name = none || name = some [45]

/-- The node that a descriptor of a process is open on. -/
def nodeAt? (p : Running) (number : Nat) : Option (Nat × Nat) :=
  match p.table.get? number with
  | some ⟨.node id _ cursor, _⟩ => some (id, cursor)
  | _ => none

/-- What is known of the size of an operand of a process. -/
def extentOf (m : Machine) (p : Running) (name : Option Bytes) : Extent :=
  let ofNode := fun (id : Nat) =>
    match m.files.node? id with
    | some (.file _ content) => Extent.sized content.size
    | _ => .unsized
  if isDash name then
    match nodeAt? p 0, p.table.get? 0 with
    | some (id, _), _ => ofNode id
    | none, some _ => .unsized
    | none, none => .missing .badDescriptor
  else match m.files.find p.cwd (name.getD []) with
    | .ok id => ofNode id
    | .error cause => .missing cause

/-- Copying the descriptor to standard output would go on for ever: both are open on one file,
which has more to read. -/
def isCircular (m : Machine) (p : Running) (number : Nat) : Bool :=
  match nodeAt? p number, nodeAt? p 1 with
  | some (id, cursor), some (target, _) =>
    match m.files.node? id with
    | some (.file _ content) => id = target && m.cursors.getD cursor 0 < content.size
    | _ => false
  | _, _ => false

end PipeShell.Machine
