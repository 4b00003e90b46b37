import PipeShell.Descriptor
import PipeShell.Environment
import PipeShell.Error
import PipeShell.FileSystem
import PipeShell.Job.Roster
import PipeShell.Program.Task

/-!
# The machine

Everything outside the shell's own state that a line can change: the file tree,
the working directory and environment of the shell, its descriptors, the pipes,
and the processes it has started.  The shell acts on it by calls that answer
with an error number or with what was asked for.

Any call that hands out descriptors or starts a process can be made to fail:
`faults` lists, for the calls to come, the error that each is to answer with.  A machine with no
faults fails a call only for a reason of its own.
-/

set_option autoImplicit false

namespace PipeShell

/-- A process that has not ended. -/
structure Running where
  pid : Nat
  program : String
  /-- What the program was called by. -/
  called : String
  cwd : Nat
  env : Environment
  table : DescriptorTable
  /-- The permissions that files it makes do not get. -/
  mask : Nat
  task : Task

structure Machine where
  files : FileSystem
  /-- The working directory of the shell. -/
  cwd : Nat
  /-- The environment of the shell. -/
  env : Environment
  /-- The home directories of the users that exist. -/
  users : String → Option String
  /-- The descriptors of the shell. -/
  table : DescriptorTable
  /-- Descriptor numbers are below this. -/
  limit : Nat
  faults : List (Option Errno)
  /-- What is in each pipe. -/
  pipes : Array ByteArray
  /-- Places in open files, shared by all descriptors of one opening. -/
  cursors : Array Nat
  roster : Roster
  /-- The group of the shell itself. -/
  shellGroup : Nat
  running : List Running
  /-- Processes that ended and were not waited for. -/
  ended : List (Nat × WaitStatus)
  nextPid : Nat
  /-- Milliseconds since the start. -/
  clock : Nat
  /-- What arrived on standard output and on standard error. -/
  output : ByteArray
  errors : ByteArray

namespace Machine

/-- The fault that the next call is to answer with, and the machine when that call is made. -/
def nextFault (m : Machine) : Option Errno × Machine :=
  match m.faults with
  | [] => (none, m)
  | fault :: rest => (fault, { m with faults := rest })

/-! ## Descriptors of the shell -/

def close (m : Machine) (number : Nat) : Machine :=
  { m with table := m.table.close number }

def closeAll (m : Machine) (numbers : List Nat) : Machine :=
  numbers.foldl close m

/-- Opens a descriptor of the shell on an open file. -/
def allocate (m : Machine) (file : OpenFile) : Except Errno (Nat × Machine) :=
  match m.table.open? m.limit { file, closeOnExec := true } with
  | none => .error .tooManyOpen
  | some (number, table) => .ok (number, { m with table })

/-- A new pipe: the numbers of its reading and of its writing end. -/
def openPipe (m : Machine) : Except Errno (Nat × Nat) × Machine :=
  match m.nextFault with
  | (some fault, m) => (.error fault, m)
  | (none, m) =>
    let id := m.pipes.size
    match m.allocate (.pipe id .reading) with
    | .error cause => (.error cause, m)
    | .ok (reader, opened) =>
      match opened.allocate (.pipe id .writing) with
      | .error cause => (.error cause, m)
      | .ok (writer, opened) =>
        (.ok (reader, writer), { opened with pipes := opened.pipes.push .empty })

/-! ## Files -/

/-- What is wrong with a path before anything is looked up. -/
def pathFault? (path : Bytes) : Option FileFailure :=
  if Path.hasNul path then some .nulInPath
  else if path = [] then some (.system .noEntry)
  else if path.length ≥ Path.lengthLimit then some (.system .nameTooLong)
  else none

/-- A descriptor of the shell on a node, read or written from its beginning. -/
def openNode (m : Machine) (id : Nat) (access : Access) : Except Errno (Nat × Machine) :=
  match m.allocate (.node id access m.cursors.size) with
  | .error cause => .error cause
  | .ok (number, m) => .ok (number, { m with cursors := m.cursors.push 0 })

/-- Opens a file for reading. -/
def openInput (m : Machine) (path : String) : Except FileFailure Nat × Machine :=
  match pathFault? (Text.encode path) with
  | some fault => (.error fault, m)
  | none =>
    match m.nextFault with
    | (some fault, m) => (.error (.system fault), m)
    | (none, m) =>
      if m.limit ≤ m.table.firstFree then (.error (.system .tooManyOpen), m)
      else match m.files.findReadable m.cwd (Text.encode path) with
        | .error cause => (.error (.system cause), m)
        | .ok id =>
          match m.openNode id .reading with
          | .error cause => (.error (.system cause), m)
          | .ok (number, m) => (.ok number, m)

/-- The permissions that files made by the shell do not get: only their owner may write. -/
def usualMask : Nat := 0o022

/-- The permissions of a file that is made under a mask. -/
def modeUnder (mask : Nat) : Nat := 0o666 - (mask &&& 0o666)

/-- The permissions of a file made for output: its owner may write, all may read. -/
def outputMode : Nat := modeUnder usualMask

/-- Opens a file for writing, emptied or new. -/
def openOutput (m : Machine) (path : String) : Except FileFailure Nat × Machine :=
  match pathFault? (Text.encode path) with
  | some fault => (.error fault, m)
  | none =>
    match m.nextFault with
    | (some fault, m) => (.error (.system fault), m)
    | (none, m) =>
      if m.limit ≤ m.table.firstFree then (.error (.system .tooManyOpen), m)
      else match m.files.recreate m.cwd (Text.encode path) outputMode with
        | .error cause => (.error (.system cause), m)
        | .ok (files, id) =>
          match m.openNode id .writing with
          | .error cause => (.error (.system cause), m)
          | .ok (number, m) => (.ok number, { m with files })

/-- The content of the file at a path. -/
def readAt (m : Machine) (path : Bytes) : Except FileFailure ByteArray :=
  match pathFault? path with
  | some fault => .error fault
  | none =>
    match m.files.findReadable m.cwd path with
    | .error cause => .error (.system cause)
    | .ok id =>
      if m.files.isDirectory id then .error (.system .isDirectory) else .ok (m.files.content id)

/-- Replaces the content of the file at a path, or makes a new one. -/
def writeAt (m : Machine) (path : Bytes) (content : ByteArray) : Except FileFailure Machine :=
  match pathFault? path with
  | some fault => .error fault
  | none =>
    match m.files.recreate m.cwd path outputMode with
    | .error cause => .error (.system cause)
    | .ok (files, id) =>
      match files.node? id, content.size with
      | some (.device .full), _ + 1 => .error (.system .noSpace)
      | _, _ => .ok { m with files := files.write id 0 content }

/-- The content of a file. -/
def readWhole (m : Machine) (path : String) : Except FileFailure ByteArray :=
  m.readAt (Text.encode path)

/-- Replaces the content of a file, or makes a new one. -/
def writeWhole (m : Machine) (path : String) (content : ByteArray) :
    Except FileFailure Machine :=
  m.writeAt (Text.encode path) content

/-! ## The working directory -/

def workingDirectory (m : Machine) : Except Errno Bytes :=
  m.files.pathOf m.cwd

/-- Goes to a directory. -/
def changeDirectory (m : Machine) (path : String) : Except FileFailure Machine :=
  match pathFault? (Text.encode path) with
  | some fault => .error fault
  | none =>
    match m.files.findDirectory m.cwd (Text.encode path) with
    | .error cause => .error (.system cause)
    | .ok cwd => .ok { m with cwd }

/-! ## Standard streams -/

/-- What the shell itself prints. -/
def print (m : Machine) (text : Bytes) : Machine :=
  { m with output := m.output ++ Text.packed text }

def printError (m : Machine) (text : String) : Machine :=
  { m with errors := m.errors ++ Text.packed (Text.encode text) }

end Machine

end PipeShell
