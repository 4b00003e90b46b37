import PipeShell.Job.Group
import PipeShell.Launcher
import PipeShell.Machine.Schedule

/-!
# Starting processes

A stage that is no builtin becomes a child of the shell.  The child begins as a
copy of the shell; it joins the session's group, puts its connection on its
standard input and output, and then turns into its program, which closes every
other descriptor that the shell had made.  When it cannot, it says so on
standard error and ends.  The shell closes its own copies of the connection in
any case.
-/

set_option autoImplicit false

namespace PipeShell.Job

/-! ## The child -/

/-- Puts an endpoint on a standard stream and closes the number it had. -/
def install (endpoint : Endpoint) (target : Nat) (t : DescriptorTable) : Option DescriptorTable :=
  if endpoint.isInherited then some t
  else if endpoint.number = target then t.duplicate target target
  else (t.duplicate endpoint.number target).map fun t => t.close endpoint.number

/-- The table of a child that has its connection in place. -/
def childTable (c : Connection) (t : DescriptorTable) : Option DescriptorTable := do
  let t ← install c.input 0 t
  install c.output 1 t

def cannotRedirect (name : String) : String := s!"psh: cannot redirect {name}\n"

def cannotExecute (name : String) : String := s!"psh: cannot execute: {name}\n"

def commandNotFound (name : String) : String := s!"psh: command not found: {name}\n"

/-- The child of a stage that is to run one of the paths. -/
def child (m : Machine) (stage : Stage) (c : Connection) (paths : List Bytes) (pid : Nat) :
    Running :=
  let copy : Running :=
    { pid, program := stage.name, called := stage.name, cwd := m.cwd, env := m.env,
      table := m.table, mask := Machine.usualMask
      task := Task.complain (cannotRedirect stage.name) WaitStatus.notExecutable }
  match childTable c m.table with
  | none => copy
  | some table =>
    let argv := stage.argv.map Text.encode
    match Image.choose (fun path => Image.ofPath m m.cwd path argv) false paths with
    | .run image =>
      { copy with
        program := image.program
        table := table.afterExec
        task := .start image.program image.argv }
    | .cannotRun =>
      { copy with
        table
        task := Task.complain (cannotExecute stage.name) WaitStatus.notExecutable }
    | .notFound =>
      { copy with
        table
        task := Task.complain (commandNotFound stage.name) WaitStatus.notFound }

/-! ## The shell -/

/-- The paths to try for a stage.  No argument and no path may hold a NUL. -/
def plan (m : Machine) (stage : Stage) : Except ResourceError (List Bytes) :=
  let paths := SearchPath.candidates m stage.name
  if stage.argv.any (fun argument => argument.toList.contains '\x00') || paths.any Path.hasNul then
    .error (.nulInArgument stage.name)
  else .ok paths

/-- Starts a stage as a child of the shell. -/
def spawn (order : Handshake) (stage : Stage) (c : Connection) (sh : Shell) :
    Except ResourceError Handle × Shell :=
  match plan sh.machine stage with
  | .error cause => (.error cause, sh.disconnect c)
  | .ok paths =>
    match sh.machine.nextFault with
    | (some fault, machine) => (.error (.fork stage.name fault), { sh with machine }.disconnect c)
    | (none, machine) =>
      let (pid, machine) := machine.start machine.shellGroup (child machine stage c paths)
      let (group, roster, warnings) :=
        Group.enroll order machine.shellGroup sh.session.group pid machine.roster
      let sh : Shell :=
        { session := { sh.session with group }
          machine := { machine with roster }
          log := sh.log ++ warnings }
      (.ok { pid, program := stage.name }, sh.disconnect c)

/-- Runs a builtin, which prints where the shell does. -/
def runBuiltin (stage : Stage) (sh : Shell) : Except ShellError Flow × Shell :=
  match Builtin.ofName? stage.name with
  | none => (.error (.builtin (.notBuiltin stage.name)), sh)
  | some b =>
    let (outcome, sink, sh) := b.run stage.argv {} sh
    (outcome.result, { sh with machine := sh.machine.print sink.written })

/-- Starts processes, and keeps how those ended that were waited for. -/
def launcher (order : Handshake) : Launcher (List WaitStatus) where
  launch stage c := fun (sh, ended) =>
    if stage.isBuiltin then
      let (result, sh) := runBuiltin stage (sh.disconnect c)
      (result.map .builtin, (sh, ended))
    else
      let (result, sh) := spawn order stage c sh
      ((result.map .process).mapError .resource, (sh, ended))
  wait handle := fun (sh, ended) =>
    match sh.machine.wait handle.pid with
    | (.ok status, machine) =>
      if status.isKnown then (.ok status, ({ sh with machine }, ended ++ [status]))
      else (.error .invalidArgument, ({ sh with machine }, ended))
    | (.error cause, machine) => (.error cause, ({ sh with machine }, ended))

/-- Ends every process of the session's group. -/
def terminate (sh : Shell) : Shell :=
  match sh.session.group with
  | none => sh
  | some group =>
    { sh with
      session := { sh.session with group := none }
      machine := sh.machine.killGroup group }

end PipeShell.Job
