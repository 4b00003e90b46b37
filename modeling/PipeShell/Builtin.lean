import PipeShell.Session

/-!
# Builtins

A builtin runs inside the shell and may change the session, the search list or
the working directory.  It prints to a `Sink`, which may run full.  Arguments
are checked before anything is changed, so a builtin that fails has changed
nothing; only `cd` can fail after it has gone to the new directory.
-/

set_option autoImplicit false

namespace PipeShell

/-- What the shell does after a line. -/
inductive Flow where
  | proceed
  | exit
  deriving DecidableEq, Repr

/-- Where a builtin prints: what was printed so far and how many bytes still fit. -/
structure Sink where
  written : Bytes := []
  room : Option Nat := none
  deriving DecidableEq

namespace Sink

/-- Prints as much as fits, and says what is wrong if that is not all. -/
def write (s : Sink) (text : String) : Option Errno × Sink :=
  let bytes := Text.encode text
  match s.room with
  | none => (none, { s with written := s.written ++ bytes })
  | some room =>
    (if bytes.length ≤ room then none else some .noSpace,
      { written := s.written ++ bytes.take room, room := some (room - bytes.length) })

end Sink

inductive Builtin where
  | defineAlias
  | bye
  | cd
  | clear
  | help
  | history
  | prev
  | pwd
  | set
  | removeAlias
  deriving DecidableEq, Repr

namespace Builtin

/-- In the order of their names. -/
def all : List Builtin :=
  [defineAlias, bye, cd, clear, help, history, prev, pwd, set, removeAlias]

def name : Builtin → String
  | defineAlias => "alias"
  | bye => "bye"
  | cd => "cd"
  | clear => "clear"
  | help => "help"
  | history => "history"
  | prev => "prev"
  | pwd => "pwd"
  | set => "set"
  | removeAlias => "unalias"

def ofName? (name : String) : Option Builtin :=
  all.find? fun b => b.name = name

theorem ofName?_name (b : Builtin) : ofName? b.name = some b := by
  cases b <;> decide

/-! ## Texts -/

/-- What `help` shows about a builtin, line by line. -/
def usageLines : Builtin → List String
  | cd =>
    [ "cd usage:",
      "cd: changes directory to the current user's home.",
      "cd directory_name: changes directory to directory_name if it exists." ]
  | bye =>
    [ "bye usage:",
      "bye: exits the shell cleanly." ]
  | defineAlias | removeAlias =>
    [ "alias & unalias usage:",
      "alias: prints the aliases of this session.",
      "alias word=\"val\": makes word run val.",
      "unalias word: removes the alias word." ]
  | set =>
    [ "set usage:",
      "set: prints the current PATH and prompt.",
      "set path directory_name...: appends directories to PATH.",
      "set prompt val: sets the shell prompt to val." ]
  | pwd =>
    [ "pwd usage:",
      "pwd: prints the current working directory." ]
  | clear =>
    [ "clear usage:",
      "clear: clears the terminal." ]
  | history | prev =>
    [ "history & prev usage:",
      "history: prints the command history of this session.",
      "prev: prints the previously entered command." ]
  | help =>
    [ "help usage:",
      "help: prints general usage.",
      "help name: prints usage of the builtin name." ]

def usage (b : Builtin) : String :=
  "\n".intercalate b.usageLines

/-- What `help` shows about the shell, up to the names of the builtins. -/
def generalLines : List String :=
  [ "psh accepts commands of the form:",
    " cmd [arg]* [ | cmd [arg]*]* [ < file1] [ > file2]",
    "",
    "psh expands a leading ~ as follows:",
    "~ -> /path/to/home/currentuser",
    "~word -> /path/to/home/word",
    "~/word -> /path/to/home/currentuser/word",
    "",
    "psh completes cmd" ++ History.completionMark ++ " to the longest match in the session " ++
      "history, then asks for confirmation before running it.",
    "",
    "psh has the following built in commands:" ]

def generalUsage : String :=
  "\n".intercalate generalLines ++ "\n"

/-- Moves to the upper left corner of an emptied screen. -/
def clearCode : String := "\x1b[2J\x1b[H"

/-! ## Running -/

/-- How a builtin ended. -/
inductive Outcome where
  | done (flow : Flow)
  | failed (cause : BuiltinError)
  /-- The shell did not survive. -/
  | aborted
  deriving DecidableEq

/-- Prints each text, up to the first that does not fit. -/
def printAll (sink : Sink) : List String → Outcome × Sink
  | [] => (.done .proceed, sink)
  | text :: rest =>
    match sink.write text with
    | (none, sink) => printAll sink rest
    | (some cause, sink) => (.failed (.writeFailed cause), sink)

/-- Prints and changes nothing. -/
def report (sink : Sink) (sh : Shell) (texts : List String) : Outcome × Sink × Shell :=
  let (outcome, sink) := printAll sink texts
  (outcome, sink, sh)

def fail (cause : BuiltinError) (sink : Sink) (sh : Shell) : Outcome × Sink × Shell :=
  (.failed cause, sink, sh)

def runCd (args : List String) (sink : Sink) (sh : Shell) : Outcome × Sink × Shell :=
  let target : Except BuiltinError String := match args with
    | [] =>
      match sh.machine.env.text? Environment.homeName with
      | some home => .ok home
      | none => .error .homeUnset
    | [directory] => .ok directory
    | _ => .error (.usage cd.name)
  match target with
  | .error cause => fail cause sink sh
  | .ok directory =>
    match sh.machine.changeDirectory directory with
    | .error _ => fail .noSuchDirectory sink sh
    | .ok machine =>
      match machine.workingDirectory with
      | .error cause => fail (.unknownWorkingDirectory cd.name cause) sink { sh with machine }
      | .ok here =>
        let env := machine.env.insert Environment.directoryName here
        report sink { sh with machine := { machine with env } }
          [s!"Changed directory to: {Text.decodeLossy here}\n"]

/-- Removes the quotes of a quoted value. -/
def unquoted (value : String) : String :=
  Text.without (fun c => c = '"' || c = '\'') value

def runDefineAlias (args : List String) (sink : Sink) (sh : Shell) : Outcome × Sink × Shell :=
  if args = [] then
    report sink sh (sh.session.aliases.toList.map fun (name, value) =>
      s!"Alias: {name}\tCommand: {value}\n")
  else match Text.splitAtFirst '=' (Text.unwords args) with
    | none => fail (.usage defineAlias.name) sink sh
    | some (name, value) =>
      if value.toList.contains '=' then fail (.usage defineAlias.name) sink sh
      else match sh.session.aliases.add (Text.trim name) (unquoted value) with
        | .error cause => fail cause sink sh
        | .ok aliases =>
          (.done .proceed, sink, { sh with session := { sh.session with aliases } })

def runRemoveAlias (args : List String) (sink : Sink) (sh : Shell) : Outcome × Sink × Shell :=
  match args with
  | [name] =>
    match sh.session.aliases.remove name with
    | none => fail .unknownAlias sink sh
    | some aliases => (.done .proceed, sink, { sh with session := { sh.session with aliases } })
  | _ => fail (.usage removeAlias.name) sink sh

def runSet (args : List String) (sink : Sink) (sh : Shell) : Outcome × Sink × Shell :=
  match args with
  | [] =>
    let path := (sh.machine.env.text? Environment.pathName).getD ""
    report sink sh [s!"path: {path}\n", s!"prompt: {sh.session.prompt}\n"]
  | "path" :: directory :: more =>
    match sh.addAllToPath (directory :: more) with
    | none => (.aborted, sink, sh)
    | some sh => (.done .proceed, sink, sh)
  | ["prompt", prompt] =>
    (.done .proceed, sink, { sh with session := { sh.session with prompt } })
  | _ => fail (.usage set.name) sink sh

def runHelp (args : List String) (sink : Sink) (sh : Shell) : Outcome × Sink × Shell :=
  match args with
  | [topic] =>
    match ofName? topic with
    | some b => report sink sh [b.usage ++ "\n"]
    | none => fail .unknownCommand sink sh
  | _ =>
    let names := Text.unwords (all.map name)
    report sink sh [generalUsage, s!"{names}\n\nSee help cmd_name for more usage.\n"]

def runPwd (sink : Sink) (sh : Shell) : Outcome × Sink × Shell :=
  match sh.machine.workingDirectory with
  | .error cause => fail (.unknownWorkingDirectory pwd.name cause) sink sh
  | .ok here => report sink sh [Text.decodeLossy here ++ "\n"]

/-- Runs a builtin with an argument vector, whose first element is its name. -/
def run (b : Builtin) (argv : List String) (sink : Sink) (sh : Shell) : Outcome × Sink × Shell :=
  let args := argv.drop 1
  match b with
  | defineAlias => runDefineAlias args sink sh
  | removeAlias => runRemoveAlias args sink sh
  | bye => (.done .exit, sink, sh)
  | cd => runCd args sink sh
  | clear => report sink sh [clearCode]
  | help => runHelp args sink sh
  | history => report sink sh (sh.session.history.entries.map (· ++ "\n"))
  | prev => report sink sh (sh.session.history.previous.toList.map (· ++ "\n"))
  | pwd => runPwd sink sh
  | set => runSet args sink sh

def Outcome.result : Outcome → Except ShellError Flow
  | done flow => .ok flow
  | failed cause => .error (.builtin cause)
  | aborted => .error .aborted

end Builtin

namespace Shell

/-- What compiling a line in this session needs to know. -/
def context (sh : Shell) : Context where
  isBuiltin name := (Builtin.ofName? name).isSome
  expandAlias name := sh.session.aliases.expand name
  expandTilde arg := sh.homes.expand arg

end Shell

end PipeShell
