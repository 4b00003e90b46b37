import PipeShell.CommandLine
import PipeShell.Job.Launch
import PipeShell.LogFilter
import PipeShell.ReadLoop

/-!
# One run of the shell

From the command line to the exit code: the settings are loaded, lines are read
and evaluated, the settings are saved under the path they were loaded from, and
whatever is left of the session's processes is ended.
-/

set_option autoImplicit false

namespace PipeShell

structure Invocation where
  arguments : List String
  /-- All of standard input, or why it cannot be read. -/
  input : Except Errno Bytes
  /-- Standard input is a terminal. -/
  interactive : Bool

namespace Invocation

def welcomeText : String := "Welcome to psh...\n"

/-- The code for a command line that was refused. -/
def refusedCode : Nat := 2

def failedCode : Nat := 1

/-- The code of a shell that did not survive. -/
def abortedCode : Nat := 101

/-- What the shell says of a failure that ends it. -/
def failureText (attempt : String) (cause : Errno) : String :=
  s!"Error: {attempt}\n\nCaused by:\n    {cause.report}\n"

/-- Writes the warnings that the filter admits to standard error. -/
def writeWarnings (filter : LogFilter) (warnings : List Warning) (m : Machine) : Machine :=
  let styled := Text.wantsColor m.env false
  (warnings.filter filter.admits).foldl (fun m warning =>
    m.printError ((LogFilter.line warning).render styled)) m

/-- Writes the log of the shell, which is empty then. -/
def writeLog (filter : LogFilter) (sh : Shell) : Shell :=
  { sh with machine := writeWarnings filter sh.log sh.machine, log := [] }

/-- The filter that the environment asks for. -/
def logFilter (options : Options) (m : Machine) : LogFilter :=
  LogFilter.parse ((m.env.text? LogFilter.variableName).getD
    (LogFilter.defaultLevel options.verbose))

/-- The path of the settings file. -/
def settingsPath (options : Options) (m : Machine) : Except Errno Bytes :=
  match options.config with
  | some path => .ok (Text.encode path)
  | none => m.workingDirectory.map fun here => Path.join here (Text.encode Settings.fileName)

/-- The settings at a path.  Settings that cannot be used give way to the defaults, with a
warning. -/
def loadSettings (m : Machine) (path : Bytes) : Settings × List Warning :=
  match Settings.loadAt m path with
  | .ok settings => (settings, [])
  | .error cause => ({}, [.defaultSettings cause])

/-- Saves the settings of the session. -/
def saveSettings (path : Bytes) (sh : Shell) : Shell :=
  match sh.session.settings.saveAt sh.machine path with
  | .ok machine => { sh with machine }
  | .error cause => sh.warn [.settingsNotSaved cause]

/-- Reads and evaluates what the input holds. -/
def readAll (inv : Invocation) (sh : Shell) : Except Errno ReadLoop.Ending × Shell :=
  match inv.input with
  | .error cause => (.error cause, sh.ask inv.interactive)
  | .ok bytes =>
    let (ending, (sh, _)) :=
      ReadLoop.run (Job.launcher .joinAdoptExec) inv.interactive bytes (sh, [])
    (.ok ending, sh)

/-- A session with the settings at a path, from its start to its end. -/
def runSession (inv : Invocation) (filter : LogFilter) (path : Bytes) (m : Machine) :
    Nat × Machine :=
  let (settings, warnings) := loadSettings m path
  let m := writeWarnings filter warnings m
  match Shell.start settings m with
  | none => (abortedCode, m)
  | some sh =>
    let sh := writeLog filter sh
    let sh := if inv.interactive then sh.print welcomeText else sh
    match readAll inv sh with
    | (.ok .aborted, sh) => (abortedCode, sh.machine)
    | (result, sh) =>
      let sh := Job.terminate (writeLog filter (saveSettings path (writeLog filter sh)))
      match result with
      | .ok _ => (0, sh.machine)
      | .error cause => (failedCode, sh.machine.printError (failureText "reading input" cause))

/-- Runs the shell with options. -/
def runWith (inv : Invocation) (options : Options) (m : Machine) : Nat × Machine :=
  let filter := logFilter options m
  let m := m.printError filter.complaints
  match settingsPath options m with
  | .ok path => runSession inv filter path m
  | .error cause =>
    (failedCode, m.printError (failureText "cannot determine the starting directory" cause))

/-- Runs the shell: its exit code, and the machine with all that was printed. -/
def run (inv : Invocation) (m : Machine) : Nat × Machine :=
  match CommandLine.request inv.arguments with
  | .help =>
    let styled := Text.wantsColor m.env inv.interactive
    (0, m.print (Text.encode (CommandLine.helpText.render styled)))
  | .version => (0, m.print (Text.encode CommandLine.versionText))
  | .refused fault =>
    (refusedCode, m.printError (fault.message.render (Text.wantsColor m.env false)))
  | .run options => inv.runWith options m

end Invocation

end PipeShell
