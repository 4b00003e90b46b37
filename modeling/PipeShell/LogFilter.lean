import PipeShell.Error
import PipeShell.Regex.Meaning
import PipeShell.Text.Styled

/-!
# What is logged

Which warnings reach standard error is decided by a specification: a list of
levels, each for the sources whose names begin with a given text or for all.
Of the entries that apply to a source the one with the longest name counts.  A
pattern behind a slash lets only those messages through that have a match.
-/

set_option autoImplicit false

namespace PipeShell

/-- How much is logged. -/
inductive LogLevel where
  | off
  | error
  | warn
  | info
  | debug
  | trace
  deriving DecidableEq, Repr

namespace LogLevel

def ofName? (name : String) : Option LogLevel :=
  [("off", off), ("error", error), ("warn", warn), ("info", info), ("debug", debug),
    ("trace", trace)].lookup (String.ofList (name.toList.map Char.toLower))

/-- Warnings are logged at this level. -/
def admitsWarnings : LogLevel → Bool
  | off => false
  | error => false
  | warn => true
  | info => true
  | debug => true
  | trace => true

end LogLevel

/-- A level for the sources whose names begin with a text, or for all of them. -/
structure LogRule where
  name : Option String
  level : LogLevel
  deriving DecidableEq

namespace LogRule

def nameLength (r : LogRule) : Nat := (r.name.map String.utf8ByteSize).getD 0

def appliesTo (r : LogRule) (source : String) : Bool :=
  r.name.all fun name => name.toList.isPrefixOf source.toList

end LogRule

structure LogFilter where
  /-- No two rules have the same name. -/
  rules : List LogRule
  wanted : Option Regex.Matcher
  /-- What could not be understood. -/
  faults : List String

namespace LogFilter

/-- The variable that holds the specification. -/
def variableName : String := "PSH_LOG"

def defaultLevel (verbose : Bool) : String :=
  if verbose then "DEBUG" else "WARN"

/-- Adds a rule, in the place of the one with the same name if there is one. -/
def put (f : LogFilter) (name : Option String) (level : LogLevel) : LogFilter :=
  if f.rules.any fun rule => rule.name = name then
    let replace := fun (rule : LogRule) => if rule.name = name then { rule with level } else rule
    { f with rules := f.rules.map replace }
  else { f with rules := f.rules ++ [{ name, level }] }

def note (f : LogFilter) (fault : String) : LogFilter :=
  { f with faults := f.faults ++ [fault] }

def refuse (f : LogFilter) (text : String) : LogFilter :=
  f.note s!"invalid logging spec '{text}'"

/-- The pieces of a text between the marks. -/
def pieces (mark : Char) (text : String) : List String :=
  (text.toList.splitOn mark).map String.ofList

def addEntry (f : LogFilter) (entry : String) : LogFilter :=
  let entry := Text.trim entry
  if entry = "" then f
  else match pieces '=' entry with
    | [name] =>
      match LogLevel.ofName? name with
      | some level => f.put none level
      | none => f.put (some name) .trace
    | [name, level] =>
      let level := Text.trim level
      if level = "" then f.put (some name) .trace
      else match LogLevel.ofName? level with
        | some level => f.put (some name) level
        | none => f.refuse level
    | _ => f.refuse entry

def nothing : LogFilter := { rules := [], wanted := none, faults := [] }

/-- Lets only messages through that match a pattern. -/
def want (f : LogFilter) (pattern : String) : LogFilter :=
  match Regex.compile pattern with
  | .ok wanted => { f with wanted := some wanted }
  | .error cause => f.note s!"invalid regex filter - {cause.message}"

def parse (specification : String) : LogFilter :=
  match pieces '/' specification with
  | [entries] => (pieces ',' entries).foldl addEntry nothing
  | [entries, pattern] => ((pieces ',' entries).foldl addEntry nothing).want pattern
  | _ => nothing.note s!"invalid logging spec '{specification}' (too many '/'s)"

/-- The level for a source: that of the rule with the longest name that applies, of two the later.
Without any rule only errors are logged. -/
def levelFor (f : LogFilter) (source : String) : LogLevel :=
  if f.rules = [] then .error
  else
    let longest := (f.rules.filter fun rule => rule.appliesTo source).foldl
      (fun (best : Option LogRule) rule =>
        match best with
        | some other => if rule.nameLength < other.nameLength then best else some rule
        | none => some rule) none
    (longest.map LogRule.level).getD .off

def admits (f : LogFilter) (w : Warning) : Bool :=
  (f.levelFor w.source).admitsWarnings &&
    f.wanted.all fun wanted => wanted.occursIn w.message.toList

/-- How far the further lines of a message are moved in. -/
def indent : List Char := [' ', ' ', ' ', ' ']

/-- A message whose further lines are moved in. -/
def indented (message : String) : String :=
  String.ofList (message.toList.flatMap fun c => if c = '\n' then c :: indent else [c])

/-- A warning as lines of the log. -/
def line (w : Warning) : Text.Styled :=
  [(.faint, "["), (.caution, "WARN "), (.plain, s!" {w.source}"), (.faint, "]"),
    (.plain, s!" {indented w.message}\n")]

/-- What the filter says about what it could not understand. -/
def complaints (f : LogFilter) : String :=
  String.join (f.faults.map fun fault => s!"warning: {fault}, ignoring it\n")

end LogFilter

end PipeShell
