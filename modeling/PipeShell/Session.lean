import PipeShell.Alias
import PipeShell.Compile
import PipeShell.History
import PipeShell.Settings
import PipeShell.Tilde

/-!
# Sessions

A `Session` is what the shell itself remembers from line to line; a `Shell` is
a session on a machine, with the warnings given so far.  A session starts from
settings and can be turned into settings again at any time.
-/

set_option autoImplicit false

namespace PipeShell

structure Session where
  prompt : String
  aliases : AliasTable
  history : History
  /-- The process group of the children, once there is one. -/
  group : Option Nat
  /-- Directories added to the search list, in the order in which they were added. -/
  addedPaths : List String
  deriving DecidableEq

namespace Session

/-- A session with nothing but a prompt. -/
def fresh (prompt : String) : Session :=
  { prompt, aliases := .empty, history := .empty, group := none, addedPaths := [] }

/-- What the session hands on. -/
def settings (s : Session) : Settings :=
  { prompt := s.prompt, paths := s.addedPaths, aliases := s.aliases.bindings }

/-- Takes over a saved alias, or says why not. -/
def adoptAlias (s : Session) (name value : String) : Session × List Warning :=
  match s.aliases.add name value with
  | .ok aliases => ({ s with aliases }, [])
  | .error cause => (s, [.savedAliasIgnored name cause])

end Session

structure Shell where
  session : Session
  machine : Machine
  /-- Warnings in the order in which they were given. -/
  log : List Warning

namespace Shell

def warn (sh : Shell) (warnings : List Warning) : Shell :=
  { sh with log := sh.log ++ warnings }

/-- Adds a directory to the search list.  There is no shell that has one with a NUL in it. -/
def addToPath (sh : Shell) (directory : String) : Option Shell :=
  (sh.machine.env.addToPath directory).map fun env =>
    { sh with
      session := { sh.session with addedPaths := sh.session.addedPaths ++ [directory] }
      machine := { sh.machine with env } }

def addAllToPath (sh : Shell) (directories : List String) : Option Shell :=
  directories.foldlM addToPath sh

def adoptAlias (sh : Shell) (name value : String) : Shell :=
  let (session, warnings) := sh.session.adoptAlias name value
  { sh with session, log := sh.log ++ warnings }

/-- Takes over saved aliases in the order of their names. -/
def adoptAliases (sh : Shell) (aliases : Dictionary String) : Shell :=
  aliases.toList.foldl (fun sh (name, value) => sh.adoptAlias name value) sh

/-- A shell with the given settings. -/
def start (settings : Settings) (machine : Machine) : Option Shell :=
  let sh : Shell := { session := .fresh settings.prompt, machine, log := [] }
  (sh.addAllToPath settings.paths).map fun sh => sh.adoptAliases settings.aliases

def homes (sh : Shell) : Homes :=
  { own := sh.machine.env.text? Environment.homeName, ofUser := sh.machine.users }

end Shell

end PipeShell
