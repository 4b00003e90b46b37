import PipeShell.Interpreter.Children
import PipeShell.Interpreter.Files
import PipeShell.Interpreter.Variables
import PipeShell.Program.Script.Format

/-!
# Commands of the interpreter

The commands that a script runs without starting a program.  The mistakes of
some of them end the script.
-/

set_option autoImplicit false

namespace PipeShell.Machine

/-- The commands whose mistakes end the script. -/
def isSpecial (name : String) : Bool :=
  [":", ".", "break", "continue", "eval", "exec", "exit", "export", "readonly", "return", "set",
    "shift", "times", "trap", "unset"].contains name

/-- The commands that the interpreter runs itself. -/
def isBuiltin (name : String) : Bool :=
  isSpecial name || ["[", "cd", "command", "echo", "false", "hash", "kill", "local", "printf",
    "pwd", "read", "test", "true", "type", "ulimit", "umask", "wait"].contains name

/-! ## Answers -/

def echoAnswer (arguments : List Bytes) : Answer :=
  let (arguments, ending) : List Bytes × Bytes :=
    if arguments.head? = some (Text.encode "-n") then (arguments.drop 1, []) else (arguments, [10])
  let (text, ends) := Text.unescapeAll false arguments
  ⟨if ends then text else text ++ ending, [], 0⟩

/-- What a condition wants to know about a file. -/
def probe (m : Machine) (p : Running) (question : Char) (path : Bytes) : Bool :=
  let here := fun (purpose : FileSystem.Purpose) =>
    match m.files.resolve purpose p.cwd path with
    | .ok (.node id) => (m.files.node? id).map fun node => (id, node)
    | _ => none
  match question, here .find with
  | 'h', _ | 'L', _ =>
    match here .findLink with
    | some (_, .link _) => true
    | _ => false
  | 't', _ => false
  | _, none => false
  | 'd', some (_, .directory ..) => true
  | 'f', some (_, .file ..) | 'f', some (_, .program _) => true
  | 'c', some (_, .device _) => true
  | 's', some (_, .file _ content) => content.size ≠ 0
  | 's', some _ => true
  | 'r', some (id, _) => m.files.permits id .read
  | 'w', some (id, _) => m.files.permits id .write
  | 'x', some (id, _) => m.files.permits id .execute
  | 'e', some _ | 'O', some _ | 'G', some _ => true
  | _, _ => false

def testAnswer (m : Machine) (p : Running) (arguments : List Bytes) : Answer :=
  match Condition.evaluate (m.probe p) arguments with
  | .ok holds => .quiet (if holds then 0 else 1)
  | .error text => .wrong text

def printfAnswer (arguments : List Bytes) : Answer :=
  match if arguments.head? = some (Text.encode "--") then arguments.drop 1 else arguments with
  | [] => .wrong "usage: printf format [arg ...]"
  | format :: arguments =>
    match Format.apply format arguments with
    | .ok o => ⟨o.written, o.complaints, if o.complaints = [] then 0 else 1⟩
    | .error text => .wrong text

/-- How a name would be run, said at length or briefly.  Nothing if it would not. -/
def kindOf? (m : Machine) (p : Running) (s : Script) (name : Bytes) : Option (String × String) :=
  let shown := Text.decodeLossy name
  if Command.keywords.contains shown then some (s!"{shown} is a shell keyword", shown)
  else if (s.functions.lookup shown).isSome then some (s!"{shown} is a shell function", shown)
  else if isBuiltin shown then some (s!"{shown} is a shell builtin", shown)
  else
    let paths := SearchPath.candidatesIn (m.files.isFile p.cwd) (searched s []) name
    (paths.find? fun path => (m.files.find p.cwd path).isOk).map fun path =>
      (s!"{shown} is {Text.decodeLossy path}", Text.decodeLossy path)

def typeAnswer (m : Machine) (p : Running) (s : Script) (names : List Bytes) : Answer :=
  names.foldl (fun (a : Answer) name =>
    let (text, status) := match m.kindOf? p s name with
      | some (text, _) => (text, a.status)
      | none => (s!"{Text.decodeLossy name}: not found", 127)
    { a with output := a.output ++ Text.encode (text ++ "\n"), status }) (.quiet 0)

/-- What `command -v` says, or with `long` what `command -V` does. -/
def kindAnswer (m : Machine) (p : Running) (s : Script) (long : Bool) (names : List Bytes) :
    Answer :=
  if long then m.typeAnswer p s (names.take 1)
  else match names with
    | [] => .quiet 0
    | name :: _ =>
      match m.kindOf? p s name with
      | some (_, text) => ⟨Text.encode (text ++ "\n"), [], 0⟩
      | none => .quiet 127

/-- The permissions that are left for one of the three kinds of users. -/
def maskLetters (digit : Nat) : String :=
  (if digit / 4 % 2 = 0 then "r" else "") ++ (if digit / 2 % 2 = 0 then "w" else "") ++
    (if digit % 2 = 0 then "x" else "")

/-- What `umask` says, and the mask from then on. -/
def maskAnswer (mask : Nat) (arguments : List Bytes) : Answer × Nat :=
  let digits := [mask / 512 % 8, mask / 64 % 8, mask / 8 % 8, mask % 8]
  match arguments with
  | [] => (⟨Text.encode (String.join (digits.map toString) ++ "\n"), [], 0⟩, mask)
  | first :: _ =>
    let shown := Text.decodeLossy first
    if shown = "-S" then
      let text := s!"u={maskLetters (mask / 64 % 8)},g={maskLetters (mask / 8 % 8)}," ++
        s!"o={maskLetters (mask % 8)}\n"
      (⟨Text.encode text, [], 0⟩, mask)
    else if first.all fun b => 48 ≤ b && b ≤ 55 then
      (.quiet 0, first.foldl (fun n b => n * 8 + (b.toNat - 48)) 0 % 512)
    else if (number? first).isSome then (.wrong s!"Illegal number: {shown}", mask)
    else (.wrong s!"Illegal mode: {shown}", mask)

/-! ## Directories -/

/-- Goes to another directory. -/
def changeDirectoryOf (m : Machine) (p : Running) (s : Script) (line : Nat) (back : DescriptorTable)
    (arguments : List Bytes) : Machine :=
  let arguments := arguments.filter fun argument =>
    argument ≠ Text.encode "-L" && argument ≠ Text.encode "-P"
  let here := s.values.get? Environment.directoryName
  let home := s.values.get? Environment.homeName
  let returning := arguments.head? = some [45]
  let target? := match arguments with
    | [] => home
    | target :: _ => if target = [45] then some ((s.values.get? "OLDPWD").getD []) else some target
  let done := fun (p : Running) (s : Script) (output : Bytes) =>
    m.answer { p with table := if output = [] then back else p.table } s line "cd"
      ⟨output, [], 0⟩
  match target? with
  | none => done p s []
  | some target =>
    let path := match here with
      | some here => logicalPath here target
      | none => target
    match m.files.findDirectory p.cwd path with
    | .ok cwd =>
      let physical := (m.files.pathOf cwd).toOption.getD path
      let path := if here.isSome then path else physical
      let s := match here with
        | some here =>
          { s.setVariable "OLDPWD" here with exports := "OLDPWD" :: s.exports }
        | none => s
      done { p with cwd } (s.setVariable Environment.directoryName path)
        (if returning then path ++ [10] else [])
    | .error _ => m.answer p s line "cd" (.wrong s!"can't cd to {Text.decodeLossy target}")

/-! ## Commands whose mistakes end the script -/

/-- The number that a command is given, or what is wrong with it. -/
def countOf (arguments : List Bytes) (usual : Nat) : Except String Nat :=
  match arguments with
  | [] => .ok usual
  | argument :: _ =>
    match number? argument with
    | some n => .ok n
    | none => .error s!"Illegal number: {Text.decodeLossy argument}"

/-- Reads a text as commands, which are called by a name of their own. -/
def runText (m : Machine) (p : Running) (s : Script) (back : DescriptorTable) (label text : Bytes)
    (isFile : Bool) : Machine :=
  m.goOn p ({ s with status := 0, substituted := none, label := some label }.push
    (Script.commandsOf text ++ [Action.endText s.label isFile, Action.restore back]))

/-- Reads a file as commands. -/
def runFile (m : Machine) (p : Running) (s : Script) (line : Nat) (back : DescriptorTable)
    (file : Bytes) : Machine :=
  let paths := SearchPath.candidatesIn (m.files.isFile p.cwd) (searched s []) file
  let shown := Text.decodeLossy file
  let wrong := fun (text : String) => m.giveUp p s (remark s line s!".: {text}") 2
  match paths with
  | [] => wrong s!"{shown}: not found"
  | path :: _ =>
    match m.files.findReadable p.cwd path with
    | .error cause => wrong s!"cannot open {shown}: {openReason cause}"
    | .ok id => m.runText p s back path (m.files.content id).data.toList true

/-- Sets traps or lists them. -/
def runTrap (m : Machine) (p : Running) (s : Script) (line : Nat) (back : DescriptorTable)
    (arguments : List Bytes) : Machine :=
  let arguments := if arguments.head? = some (Text.encode "--") then arguments.drop 1
    else arguments
  if arguments = [] then m.answer p (s.push [.restore back]) line "trap" ⟨trapList s, [], 0⟩
  else match setTraps s arguments with
    | (s, none) => m.goOn { p with table := back } (settle s 0)
    | (s, some bad) =>
      m.say p (settle (s.push [.restore back]) 1)
        (Text.packed (Text.encode "trap: " ++ bad ++ Text.encode ": bad trap\n"))

/-- Runs a command whose mistakes end the script.  `back` has the descriptors as they were. -/
def runSpecial (m : Machine) (p : Running) (s : Script) (line : Nat) (back : DescriptorTable)
    (given : List (String × Bytes)) (name : String) (arguments : List Bytes) : Machine :=
  let unredirected := { p with table := back }
  let done := fun (s : Script) => m.goOn unredirected (settle s 0)
  let wrong := fun (text : String) => m.giveUp p s (remark s line s!"{name}: {text}") 2
  let list := fun (text : Bytes) =>
    m.answer p (s.push [.restore back]) line name ⟨text, [], 0⟩
  match name with
  | "exit" =>
    match countOf arguments s.status with
    | .ok n => m.goOn unredirected { s with todo := [.exit (n % 256)] }
    | .error text => wrong text
  | "return" =>
    match countOf arguments s.status with
    | .error text => wrong text
    | .ok n =>
      let todo := (Script.leaveFunction s.todo).getD [.exit (n % 256)]
      m.goOn unredirected { s with todo, status := n % 256, substituted := none }
  | "break" | "continue" =>
    match countOf arguments 1 with
    | .error text => wrong text
    | .ok 0 => wrong "Illegal number: 0"
    | .ok n =>
      match Script.leaveLoops (name = "continue") n s.todo with
      | some todo => m.goOn unredirected { s with todo, status := 0, substituted := none }
      | none => done s
  | "shift" =>
    match countOf arguments 1 with
    | .error text => wrong text
    | .ok n =>
      if s.arguments.length < n then wrong "can't shift that many"
      else done { s with arguments := s.arguments.drop n }
  | "set" =>
    match setOptions s arguments with
    | .ok s => done s
    | .error option => wrong s!"Illegal option -{option}"
  | "export" | "readonly" =>
    if withoutOptions arguments = [] then
      list (definitions s name (if name = "export" then s.exports else s.readOnly))
    else match declare s (name = "readonly") arguments with
      | .ok s => done s
      | .error text => wrong text
  | "unset" =>
    match undefine s arguments with
    | .ok s => done s
    | .error text => wrong text
  | "trap" => m.runTrap p s line back arguments
  | "eval" =>
    m.runText p s back (Text.encode "eval") ([Text.space].intercalate arguments) false
  | "." =>
    match arguments with
    | [] => done s
    | file :: _ => m.runFile p s line back file
  | "exec" =>
    match arguments with
    | [] => m.goOn p (settle s 0)
    | argv => m.runProgram p s line p.table given argv true
  | _ => done s

/-! ## Other commands -/

/-- Waits for processes in the background. -/
def runWait (m : Machine) (p : Running) (s : Script) (line : Nat) (back : DescriptorTable)
    (arguments : List Bytes) : Machine :=
  let reply := fun (a : Answer) => m.answer p (s.push [.restore back]) line "wait" a
  match arguments with
  | [] =>
    m.resume { p with table := back } (.awaiting s.background false
      ({ s with background := [] }.push [.setStatus 0]))
  | target :: _ =>
    match number? target with
    | none => reply (.wrong s!"Illegal number: {Text.decodeLossy target}")
    | some pid =>
      if s.background.contains pid then
        m.resume { p with table := back } (.awaiting [pid] true
          { s with background := s.background.filter (· ≠ pid) })
      else reply (.quiet 127)

/-- Runs a command of the interpreter itself. -/
def runBuiltin (m : Machine) (p : Running) (s : Script) (line : Nat) (back : DescriptorTable)
    (given : List (String × Bytes)) (name : String) (arguments : List Bytes) : Machine :=
  let restored := s.push [.restore back]
  let reply := fun (a : Answer) => m.answer p restored line name a
  match name with
  | "true" => reply (.quiet 0)
  | "false" => reply (.quiet 1)
  | "echo" => reply (echoAnswer arguments)
  | "printf" => reply (printfAnswer arguments)
  | "test" => reply (m.testAnswer p arguments)
  | "[" =>
    if arguments.getLast? = some (Text.encode "]") then reply (m.testAnswer p arguments.dropLast)
    else reply (.wrong "missing ]")
  | "pwd" =>
    let here := match s.values.get? Environment.directoryName with
      | some path => path
      | none => (m.files.pathOf p.cwd).toOption.getD []
    reply ⟨here ++ [10], [], 0⟩
  | "cd" => m.changeDirectoryOf p restored line back arguments
  | "kill" => m.runKill p restored line arguments
  | "type" => reply (m.typeAnswer p s arguments)
  | "umask" =>
    let (a, mask) := maskAnswer p.mask arguments
    m.answer { p with mask } restored line name a
  | "ulimit" => reply (if arguments = [] then ⟨Text.encode "unlimited\n", [], 0⟩ else .quiet 0)
  | "wait" => m.runWait p s line back arguments
  | "read" =>
    let raw := arguments.head? = some (Text.encode "-r")
    let names := (withoutOptions arguments).map Text.decodeLossy
    match names, names.findSome? (nameFault? s) with
    | [], _ => reply (.wrong "arg count")
    | _, some text => reply (.wrong text)
    | names, none => m.resume p (.reading names raw [] restored)
  | "local" =>
    match makeLocal s arguments with
    | .ok s => m.goOn { p with table := back } (settle s 0)
    | .error text => m.giveUp p s (remark s line s!"local: {text}") 2
  | "command" =>
    match arguments with
    | [] => reply (.quiet 0)
    | first :: rest =>
      if first = Text.encode "-v" then reply (m.kindAnswer p s false rest)
      else if first = Text.encode "-V" then reply (m.kindAnswer p s true rest)
      else m.runProgram p s line back given arguments false
  | _ => reply (.quiet 0)

end PipeShell.Machine
