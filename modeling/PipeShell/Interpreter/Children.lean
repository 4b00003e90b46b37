import PipeShell.Interpreter.Voice
import PipeShell.Machine.Image
import PipeShell.SearchPath

/-!
# Children of a script

The processes that a script starts: copies of itself that run some of its
commands, and programs.
-/

set_option autoImplicit false

namespace PipeShell.Machine

/-! ## Copies -/

/-- A process that runs commands on its own. -/
def forkCommands (m : Machine) (p : Running) (s : Script) (table : DescriptorTable)
    (todo : List Command) : Nat × Machine :=
  m.fork p table (.script { s with
    todo := todo.map .run
    becomesLast := true
    background := []
    traps := []
    outputs := []
    options := if s.isTested then s.options.filter (· ≠ 'e') else s.options })

/-- Starts the parts of a pipeline side by side.  `input` is the pipe that the first of them
reads. -/
def startParts (m : Machine) (p : Running) (s : Script) (input : Option Nat) :
    List Command → List Nat × Machine
  | [] => ([], m)
  | part :: rest =>
    let table := match input with
      | some id => p.table.put 0 (pipeEnd id .reading)
      | none => p.table
    match rest with
    | [] =>
      let (child, m) := m.forkCommands p s table [part]
      ([child], m)
    | rest =>
      let (id, m) := m.makePipe .empty
      let (child, m) := m.forkCommands p s (table.put 1 (pipeEnd id .writing)) [part]
      let (children, m) := startParts m p s (some id) rest
      (child :: children, m)

/-- Takes the output of commands, which run with what the script knows in `inner`, for another
command. -/
def collect (m : Machine) (p : Running) (s inner : Script) (text : List Char) (line : Nat)
    (c : Command) : Machine :=
  let (id, m) := m.makePipe .empty
  let table := p.table.put 1 (pipeEnd id .writing)
  let (child, m) := m.forkCommands p inner table (Command.parse line text)
  let number := p.table.firstFree
  m.resume { p with table := p.table.put number (pipeEnd id .reading) }
    (.collecting child number [] c s)

/-- Does something with what an expansion gives.  If it wants the output of other commands first,
the command waits for it and is run again. -/
def expanding {α : Type} (m : Machine) (p : Running) (s : Script) (c : Command) (line : Nat)
    (e : Script.Expansion α) (next : α → Script → Machine) : Machine :=
  match e.run s with
  | .ok (found, s) => next found { s with outputs := [] }
  | .error (.fault text) => m.giveUp p s (remarkOfText s line text) 2
  | .error (.wants text first inner) => m.collect p s inner text first c

/-! ## Programs -/

/-- The directories in which a script looks for programs. -/
def searched (s : Script) (given : List (String × Bytes)) : List Bytes :=
  match (given.lookup Environment.pathName).or (s.values.get? Environment.pathName) with
  | some list => SearchPath.split list
  | none => []

/-- Nothing is left to do but to put things back. -/
def isNearlyDone (s : Script) : Bool :=
  s.traps.isEmpty && s.todo.all fun action =>
    match action with
    | .restore _ => true
    | .revert _ => true
    | .endText .. => true
    | _ => false

/-- Starts a program, which the script waits for, or gives way to if that is `wanted` or nothing is
left to do.  `back` has the descriptors as they were. -/
def runProgram (m : Machine) (p : Running) (s : Script) (line : Nat) (back : DescriptorTable)
    (given : List (String × Bytes)) (argv : List Bytes) (wanted : Bool) : Machine :=
  let name := argv.headD []
  let env := given.foldl (fun (env : Environment) (name, value) => env.insert name value)
    s.environment
  let paths := SearchPath.candidatesIn (m.files.isFile p.cwd) (searched s given) name
  let shown := Text.decodeLossy name
  let failed := fun (text : String) (status : Nat) =>
    if wanted then m.giveUp p s (remark s line s!"exec: {shown}: {text}") status
    else
      m.say p ((settle s status).push [.restore back]) (remarkOfText s line s!"{shown}: {text}")
  match Image.choose (fun path => Image.ofPath m p.cwd path argv) false paths with
  | .run image =>
    let task : Task := .start image.program image.argv
    let program := { p with program := image.program, env }
    if wanted || (s.becomesLast && isNearlyDone s) then m.resume program task
    else
      let (child, m) := m.fork program p.table task
      m.resume p (.awaiting [child] true (s.push [.restore back]))
  | .cannotRun => failed "Permission denied" 126
  | .notFound => failed (if name = [] then "Permission denied" else "not found") 127

end PipeShell.Machine
