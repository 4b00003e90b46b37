import PipeShell.Text.Similarity
import PipeShell.Text.Styled
import PipeShell.Text.WhiteSpace

/-!
# The command line

The shell takes two options and no other arguments.  Arguments are taken from
left to right and the first that is wrong is reported; `-h` and `-V` answer at
once, whatever stands behind them.  A value given apart from its option counts
only when the next argument has been looked at.
-/

set_option autoImplicit false

namespace PipeShell

/-- How the shell is to run. -/
structure Options where
  /-- The settings file, where one is named. -/
  config : Option String
  verbose : Bool
  deriving DecidableEq

namespace CommandLine

inductive Flag where
  | config
  | verbose
  | help
  | version
  deriving DecidableEq, Repr

namespace Flag

def all : List Flag := [config, verbose, help, version]

/-- The long name of a flag. -/
def name : Flag → String
  | config => "config"
  | verbose => "verbose"
  | help => "help"
  | version => "version"

def letter : Flag → Char
  | config => 'c'
  | verbose => 'v'
  | help => 'h'
  | version => 'V'

/-- The name of the value that a flag takes, with the space before it. -/
def operand : Flag → String
  | config => " <CONFIG>"
  | _ => ""

/-- A flag as texts show it, with the value it takes. -/
def shown (flag : Flag) : String := s!"--{flag.name}{flag.operand}"

/-- What a flag is for. -/
def purpose : Flag → String
  | config =>
    "Settings file read at startup and written at exit " ++
      "[default: psh.toml in the starting directory]"
  | verbose => "Log debug output to stderr"
  | help => "Print help"
  | version => "Print version"

/-- The flags that set an option of the shell. -/
def settings : List Flag := [config, verbose]

def ofName? (name : String) : Option Flag :=
  all.find? fun flag => flag.name = name

def ofLetter? (c : Char) : Option Flag :=
  all.find? fun flag => flag.letter = c

end Flag

/-- What a usage text shows behind the name of the program. -/
inductive Usage where
  /-- That there are options. -/
  | general
  | flags (used : List Flag)
  /-- A flag, if there is one, and a choice of those that set an option. -/
  | choice (flag : Option Flag)
  deriving DecidableEq

/-- What is wrong with a command line. -/
inductive Fault where
  | unexpected (argument : String) (similar : Option Flag) (usage : Usage)
  | missingValue
  | repeated (flag : Flag)
  | unneededValue (value : String) (flag : Flag) (usage : Usage)
  deriving DecidableEq

/-- What a command line asks for. -/
inductive Request where
  | run (options : Options)
  | help
  | version
  | refused (fault : Fault)
  deriving DecidableEq

/-! ## Texts -/

def programName : String := "psh"

open Text (Style Styled)

/-- A flag with its value; only what is to be typed is a literal. -/
def Flag.styled (flag : Flag) : Styled :=
  [(.literal, s!"--{flag.name}"), (.plain, flag.operand)]

/-- How wide the first column of the list of options is. -/
def columnWidth : Nat := 19

/-- A line of the list of options. -/
def optionLine (flag : Flag) : Styled :=
  let gap := "".pushn ' ' (columnWidth - flag.shown.length)
  [(.plain, "  "), (.literal, s!"-{flag.letter}"), (.plain, ", ")] ++ flag.styled ++
    [(.plain, s!"{gap}{flag.purpose}\n")]

/-- How the program is used. -/
def Usage.styled (usage : Usage) : Styled :=
  let shown : List Styled := match usage with
    | general => [.plain "[OPTIONS]"]
    | flags used => used.map Flag.styled
    | choice flag =>
      let settings := "|".intercalate (Flag.settings.map Flag.shown)
      flag.toList.map Flag.styled ++ [.plain s!"<{settings}>"]
  [(.heading, "Usage:"), (.plain, " "), (.literal, programName), (.plain, " ")] ++
    Styled.intercalate " " shown

def helpText : Styled :=
  Styled.plain "Interactive pipeline shell: pipes, redirection, aliases and builtins\n\n" ++
    Usage.general.styled ++ [(.plain, "\n\n"), (.heading, "Options:"), (.plain, "\n")] ++
    Flag.all.flatMap optionLine

def versionText : String := "psh 0.1.0\n"

/-- The paragraphs that say what is wrong. -/
def Fault.explanation : Fault → List Styled
  | unexpected argument similar usage =>
    let hint := similar.toList.map fun flag =>
      ([(.plain, "  "), (.right, "tip:"), (.plain, " a similar argument exists: '"),
        (.right, s!"--{flag.name}"), (.plain, "'")] : Styled)
    [[(.plain, "unexpected argument '"), (.wrong, argument), (.plain, "' found")]] ++ hint ++
      [usage.styled]
  | missingValue =>
    [[(.plain, "a value is required for '"), (.wrong, Flag.config.shown),
      (.plain, "' but none was supplied")]]
  | repeated flag =>
    [[(.plain, "the argument '"), (.wrong, flag.shown),
      (.plain, "' cannot be used multiple times")], Usage.general.styled]
  | unneededValue value flag usage =>
    [[(.plain, "unexpected value '"), (.wrong, value), (.plain, "' for '"),
      (.literal, flag.shown), (.plain, "' found; no more were expected")], usage.styled]

def Fault.message (fault : Fault) : Styled :=
  [(.alarm, "error:"), (.plain, " ")] ++ Styled.intercalate "\n\n" (fault.explanation ++
    [[(.plain, "For more information, try '"), (.literal, "--help"), (.plain, "'.\n")]])

/-! ## Arguments -/

/-- A value that was announced, and what it is once that is known. -/
inductive Pending where
  | nothing
  | announced
  | given (value : String)
  deriving DecidableEq

structure Draft where
  config : Option String
  verbose : Bool
  /-- The flags that count so far, in order. -/
  used : List Flag
  pending : Pending
  deriving DecidableEq

namespace Draft

def start : Draft := { config := none, verbose := false, used := [], pending := .nothing }

def setConfig (d : Draft) (value : String) : Except Fault Draft :=
  if d.used.contains .config then .error (.repeated .config)
  else if value = "" then .error .missingValue
  else .ok { d with config := some value, used := d.used ++ [.config] }

/-- Makes the value that was announced count. -/
def settle (d : Draft) : Except Fault Draft :=
  match d.pending with
  | .nothing => .ok d
  | .announced => .error .missingValue
  | .given value => { d with pending := .nothing }.setConfig value

/-- The flags that count when an argument turns out to be unknown. -/
def settledFlags (d : Draft) : List Flag :=
  match d.settle with
  | .ok d => d.used
  | .error (.repeated flag) => d.used.filter (· ≠ flag)
  | .error _ => if d.pending = .given "" then d.used ++ [.config] else d.used

def announce (d : Draft) : Except Fault Draft :=
  d.settle.map fun d => { d with pending := .announced }

def attach (d : Draft) (value : String) : Except Fault Draft := do
  let d ← d.settle
  d.setConfig value

/-- A flag that takes no value.  The two that ask a question are answered at once. -/
def mark (d : Draft) (flag : Flag) : Except Request Draft :=
  match d.settle with
  | .error fault => .error (.refused fault)
  | .ok d =>
    match flag with
    | .help => .error .help
    | .version => .error .version
    | flag =>
      if d.used.contains flag then .error (.refused (.repeated flag))
      else .ok { d with verbose := true, used := d.used ++ [flag] }

/-- The flag whose name is like an unknown one. -/
def similarFlag? (name : String) : Option Flag :=
  (Text.mostSimilar? ⟨7, 10⟩ name.toList (Flag.all.map fun flag => flag.name.toList)).bind
    fun name => Flag.ofName? (String.ofList name)

def addUsed (used : List Flag) (flag : Flag) : List Flag :=
  if used.contains flag then used else used ++ [flag]

/-- The usage shown with a flag that was wrong, given the flags that count so far.  Once an option
was set, the text shows all that set one. -/
def usageWith (used : List Flag) (flag : Flag) : Usage :=
  if used = [] then .flags [flag]
  else .choice (if Flag.settings.contains flag then none else some flag)

def usageOf (used : List Flag) : Usage := if used = [] then .general else .flags used

/-- An argument that begins with two dashes. -/
def addLong (d : Draft) (text : List Char) : Except Request Draft :=
  let name := String.ofList (text.takeWhile (· ≠ '='))
  let value? := (Text.cutOnce '=' text).map fun parts => String.ofList parts.2
  match Flag.ofName? name, value? with
  | some .config, some value => (d.attach value).mapError .refused
  | some .config, none => d.announce.mapError .refused
  | some flag, some value =>
    .error (.refused (.unneededValue value flag (usageWith d.used flag)))
  | some flag, none => d.mark flag
  | none, _ =>
    let similar := similarFlag? name
    let used := similar.toList.foldl addUsed d.settledFlags
    .error (.refused (.unexpected s!"--{name}" similar (usageOf used)))

/-- The letters of an argument that begins with one dash. -/
def addLetters (d : Draft) : List Char → Except Request Draft
  | [] => .ok d
  | c :: rest =>
    match Flag.ofLetter? c with
    | none => .error (.refused (.unexpected s!"-{c}" none .general))
    | some .config =>
      match rest with
      | [] => d.announce.mapError .refused
      | '=' :: value => (d.attach (String.ofList value)).mapError .refused
      | value => (d.attach (String.ofList value)).mapError .refused
    | some flag => do
      let d ← d.mark flag
      addLetters d rest

/-- An argument that is no flag is the value of the option before it. -/
def addPlain (d : Draft) (argument : String) : Except Request Draft :=
  match d.pending with
  | .announced => .ok { d with pending := .given argument }
  | _ => .error (.refused (.unexpected argument none .general))

/-- Takes arguments up to the first fault or question. -/
def addAll (d : Draft) : List String → Except Request Draft
  | [] => .ok d
  | argument :: rest =>
    match argument.toList with
    | ['-', '-'] =>
      match rest with
      | [] => .ok d
      | extra :: _ => .error (.refused (.unexpected extra none .general))
    | '-' :: '-' :: text => do
      let d ← d.addLong text
      addAll d rest
    | '-' :: c :: letters => do
      let d ← d.addLetters (c :: letters)
      addAll d rest
    | _ => do
      let d ← d.addPlain argument
      addAll d rest

end Draft

/-- What the arguments ask for. -/
def request (arguments : List String) : Request :=
  match Draft.start.addAll arguments with
  | .error request => request
  | .ok d =>
    match d.settle with
    | .error fault => .refused fault
    | .ok d => .run { config := d.config, verbose := d.verbose }

end CommandLine

end PipeShell
