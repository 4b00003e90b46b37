import PipeShell.Interpreter.Step

/-!
# The beginning of a script

What the command interpreter does first: it sorts out its arguments, finds out
where it is, and gets hold of the text.
-/

set_option autoImplicit false

namespace PipeShell.Machine

/-- Where the interpreter looks for programs if it is not told. -/
def usualPath : Bytes :=
  Text.encode "/usr/local/sbin:/usr/local/bin:/usr/sbin:/usr/bin:/sbin:/bin"

/-- The options at the head of the arguments, those behind them, and the letter of one that does not
exist. -/
def interpreterOptions (letters : List Char) : List Bytes → List Char × List Bytes × Option Char
  | [] => (letters, [], none)
  | argument :: rest =>
    match Script.ofBytes argument with
    | ['-', '-'] => (letters, rest, none)
    | ['-'] => (letters, rest, none)
    | '-' :: c :: more =>
      match (c :: more).find? fun c => c ≠ 'c' && !Script.optionLetters.contains c with
      | some c => (letters, rest, some c)
      | none => interpreterOptions (letters ++ c :: more) rest
    | _ => (letters, argument :: rest, none)

/-- The working directory as the environment has it, if that is right. -/
def inheritedDirectory? (m : Machine) (p : Running) : Option Bytes :=
  (p.env.get? Environment.directoryName).filter fun path =>
    Path.isAbsolute path &&
      match m.files.findDirectory p.cwd path with
      | .ok id => id = p.cwd
      | .error _ => false

/-- The working directory, or why it is not known. -/
def startingDirectory (m : Machine) (p : Running) : Except Errno Bytes :=
  match m.inheritedDirectory? p with
  | some path => .ok path
  | none => m.files.pathOf p.cwd

/-- The variables that a script begins with. -/
def startingValues (env : Environment) (here : Option Bytes) : Environment :=
  let usual : List (String × Bytes) :=
    [(Environment.pathName, usualPath), ("OPTIND", Text.encode "1"), ("PS1", Text.encode "# "),
      ("PS2", Text.encode "> "), ("PS4", Text.encode "+ ")]
  let env := usual.foldl (fun (env : Environment) (name, value) =>
    if (env.get? name).isSome then env else env.insert name value) env
  let env := env.insert Script.separatorName [32, 9, 10]
  match here with
  | some path => env.insert Environment.directoryName path
  | none => env

/-- What the command interpreter does first. -/
def beginScript (m : Machine) (p : Running) (argv : List Bytes) : Machine :=
  let here := m.startingDirectory p
  let complaint := match here with
    | .ok _ => ""
    | .error cause => s!"sh: 0: getcwd() failed: {cause.description}\n"
  let called := argv.headD []
  let (letters, operands, unknown) := interpreterOptions [] (argv.drop 1)
  let complain := fun (text : String) =>
    Task.complain s!"{Text.decodeLossy called}: 0: {text}\n" 2
  let script := fun (name : Bytes) (arguments : List Bytes) (text : Bytes) =>
    ({ name, arguments, pid := p.pid, label := none
       values := startingValues p.env here.toOption
       exports := Environment.directoryName :: p.env.keys
       readOnly := [], functions := [], options := letters.filter (· ≠ 'c'), status := 0
       todo := Script.commandsOf text
       becomesLast := letters.contains 'c'
       background := [], traps := [], outputs := [], substituted := none
       homes := m.users } : Script)
  let next : Task := match unknown, letters.contains 'c', operands with
    | some c, _, _ => complain s!"Illegal option -{c}"
    | none, true, [] => complain "-c requires an argument"
    | none, true, text :: rest => .script (script (rest.headD called) (rest.drop 1) text)
    | none, false, operands =>
      match operands, letters.contains 's' with
      | first :: rest, false =>
        match m.files.findReadable p.cwd first with
        | .error cause =>
          complain s!"cannot open {Text.decodeLossy first}: {openReason cause}"
        | .ok id => .script (script first rest (m.files.content id).data.toList)
      | operands, _ => .loading [] { script called operands [] with options := 's' :: letters }
  m.resume p (Task.warn complaint next)

end PipeShell.Machine
