import PipeShell.Errno

/-!
# What can go wrong

Each stage of the shell has its own type of error, whose constructors are
causes: a malformed line (`LineError`), a line that cannot be compiled
(`CompileError`), a resource the operating system refused (`ResourceError`), a
builtin that failed (`BuiltinError`), a settings file that could not be used
(`SettingsError`).  `ShellError` collects those that evaluating a line can
give.  The wording of each is its `message`.
-/

set_option autoImplicit false

namespace PipeShell

/-! ## Lines -/

/-- A malformed line, rejected before anything is compiled. -/
inductive LineError where
  | empty
  | duplicateRedirect (token : Char)
  | adjacentPipes
  | redirectOrder
  | pipeAfterRedirect
  | pipeTouchesRedirect
  | danglingToken (token : Char)
  | noCommand
  | emptyStage
  | missingTarget (token : Char)
  deriving DecidableEq, Repr

def LineError.message : LineError → String
  | empty => "empty command line"
  | duplicateRedirect token => s!"more than one '{token}' redirection"
  | adjacentPipes => "adjacent '|' with no command between them"
  | redirectOrder => "input redirection must come before output redirection"
  | pipeAfterRedirect => "'|' must come before any redirection"
  | pipeTouchesRedirect => "'|' directly next to a redirection"
  | danglingToken token => s!"line cannot begin or end with '{token}'"
  | noCommand => "no command given"
  | emptyStage => "null command in pipeline"
  | missingTarget token => s!"'{token}' has no file name"

/-! ## Compilation -/

inductive CompileError where
  | redirectedBuiltin (name : String)
  | emptyCommand
  deriving DecidableEq, Repr

def CompileError.message : CompileError → String
  | redirectedBuiltin name => s!"builtin '{name}' cannot be piped or redirected"
  | emptyCommand => "command resolves to nothing"

/-! ## Files and other resources -/

/-- Why a file could not be opened, read or written. -/
inductive FileFailure where
  | system (cause : Errno)
  /-- A path ends at its first NUL, so one that holds a NUL is refused. -/
  | nulInPath
  | notUtf8
  deriving DecidableEq, Repr

def FileFailure.message : FileFailure → String
  | system cause => cause.report
  | nulInPath => "file name contained an unexpected NUL byte"
  | notUtf8 => "stream did not contain valid UTF-8"

inductive ResourceError where
  | pipe (cause : Errno)
  | openInput (path : String) (cause : FileFailure)
  | openOutput (path : String) (cause : FileFailure)
  /-- A stage asks for the end of a pipe that does not exist or is already taken. -/
  | missingPipe (stage : Nat) (index : Int)
  /-- A stage is redirected, but the pipeline names no file. -/
  | missingFile (stage : Nat)
  | nulInArgument (program : String)
  | fork (program : String) (cause : Errno)
  deriving DecidableEq, Repr

def ResourceError.message : ResourceError → String
  | pipe cause => s!"failed to create pipe: {cause.symbolic}"
  | openInput path cause => s!"could not open input file {path}: {cause.message}"
  | openOutput path cause => s!"could not open output file {path}: {cause.message}"
  | missingPipe stage index => s!"internal error: stage {stage} has no pipe {index}"
  | missingFile stage => s!"internal error: stage {stage} redirects to an unnamed file"
  | nulInArgument program => s!"argument of '{program}' contains a nul byte"
  | fork program cause => s!"failed to fork {program}: {cause.symbolic}"

/-! ## Builtins -/

inductive BuiltinError where
  | usage (name : String)
  | invalidAliasName
  | emptyAliasValue
  | aliasCycle (name : String)
  | unknownAlias
  | homeUnset
  | noSuchDirectory
  | unknownWorkingDirectory (name : String) (cause : Errno)
  | unknownCommand
  | writeFailed (cause : Errno)
  | notBuiltin (name : String)
  /-- Any other complaint, in its own words. -/
  | stated (text : String)
  deriving DecidableEq, Repr

def BuiltinError.message : BuiltinError → String
  | usage name => s!"Invalid usage. See help {name} for usage."
  | invalidAliasName => "Invalid alias name."
  | emptyAliasValue => "Alias value cannot be empty."
  | aliasCycle name => s!"Alias {name} would form a cycle."
  | unknownAlias => "Alias not on alias list."
  | homeUnset => "HOME is not set."
  | noSuchDirectory => "Failed to find new path."
  | unknownWorkingDirectory name cause => s!"{name}: {cause.report}"
  | unknownCommand => "Command not found"
  | writeFailed cause => s!"write failed: {cause.report}"
  | notBuiltin name => s!"{name}: not a builtin"
  | stated text => text

/-! ## Settings -/

inductive SettingsError where
  | file (path : String) (cause : FileFailure)
  | malformed
  deriving DecidableEq, Repr

def SettingsError.message : SettingsError → String
  | file path cause => s!"settings I/O on {path}: {cause.message}"
  | malformed => "malformed settings file"

/-! ## Evaluation of a line -/

inductive ShellError where
  | line (cause : LineError)
  | compile (cause : CompileError)
  | resource (cause : ResourceError)
  | builtin (cause : BuiltinError)
  /-- The environment cannot hold a value with a NUL in it.  The shell does not survive the
  attempt to store one. -/
  | aborted
  deriving DecidableEq, Repr

def ShellError.message : ShellError → String
  | line cause => s!"Invalid input: {cause.message}. See help for usage."
  | compile cause => cause.message
  | resource cause => cause.message
  | builtin cause => cause.message
  | aborted => "an environment value contains a NUL"

/-! ## Warnings -/

/-- What the shell notes in its log without failing. -/
inductive Warning where
  | aliasLoop (word : String)
  | savedAliasIgnored (name : String) (cause : BuiltinError)
  | waitFailed (program : String) (pid : Nat) (cause : Errno)
  | groupShared (pid : Nat)
  | defaultSettings (cause : SettingsError)
  | settingsNotSaved (cause : SettingsError)
  deriving DecidableEq, Repr

def Warning.message : Warning → String
  | aliasLoop word => s!"alias loop through {word}, expansion stopped"
  | savedAliasIgnored name cause => s!"ignoring saved alias {name}: {cause.message}"
  | waitFailed program pid cause => s!"waiting on {program} ({pid}): {cause.symbolic}"
  | groupShared pid => s!"child {pid} stayed in the shell's process group"
  | defaultSettings cause => s!"using default settings: {cause.message}"
  | settingsNotSaved cause => s!"settings not saved: {cause.message}"

/-- The part of the shell that gives the warning, as its log lines name it. -/
def Warning.source : Warning → String
  | aliasLoop _ => "psh::alias"
  | savedAliasIgnored .. => "psh::global"
  | waitFailed .. => "psh::eval"
  | groupShared _ => "psh::job"
  | defaultSettings _ => "psh"
  | settingsNotSaved _ => "psh"

end PipeShell
