import PipeShell.Descriptor
import PipeShell.Environment
import PipeShell.Program.Script.Arithmetic
import PipeShell.Program.Script.Command
import PipeShell.Program.Script.Pattern
import PipeShell.Text.Lines

/-!
# Scripts on their way

What the command interpreter knows while it runs a script: the values of
parameters, and what is still to be done.  `Script.fields` is what words stand
for: parameters replaced by their values, split at white space, and matched
against the names of files.
-/

set_option autoImplicit false

namespace PipeShell

/-- What a script has still to do. -/
inductive Action where
  | run (c : Command)
  /-- Runs a simple command whose words, redirections and assignments are known. -/
  | perform (line : Nat) (words : List Bytes) (redirects : List (Redirect × Bytes))
      (given : List (String × Bytes))
  /-- Goes on one way or the other, by the status of the last command. -/
  | branch (onSuccess : Bool) (yes no : List Action)
  | invert
  | setStatus (status : Nat)
  /-- Puts the descriptors back as they were. -/
  | restore (table : DescriptorTable)
  /-- Runs a loop; `last` is the status of its body. -/
  | loop (condition : List Command) (onSuccess : Bool) (body : List Command) (last : Nat)
  /-- The end of the body of a loop. -/
  | again (condition : List Command) (onSuccess : Bool) (body : List Command)
  | each (line : Nat) (name : String) (items : List Bytes) (body : List Command)
  /-- The end of a function, called with other arguments.  Its own variables get their old values
  back. -/
  | giveBack (arguments : List Bytes) (saved : List (String × Option Bytes))
  /-- Variables that a command was given for itself get their old values back. -/
  | revert (saved : List (String × Option Bytes))
  /-- The end of a text that was read as commands, perhaps from a file.  What it is called by was
  `label` before. -/
  | endText (label : Option Bytes) (isFile : Bool)
  /-- The end of the script. -/
  | exit (status : Nat)

/-- A script on its way. -/
structure Script where
  /-- What the script is called by. -/
  name : Bytes
  /-- What the text under way is called by, if it is not the script itself. -/
  label : Option Bytes
  /-- The process that began it. -/
  pid : Nat
  arguments : List Bytes
  /-- What the variables hold. -/
  values : Environment
  /-- The variables that commands are given. -/
  exports : List String
  readOnly : List String
  functions : List (String × Command)
  /-- The letters of the options that are set. -/
  options : List Char
  status : Nat
  todo : List Action
  /-- The last program of the script takes the place of the process. -/
  becomesLast : Bool
  /-- Processes that run in the background, the latest last. -/
  background : List Nat
  /-- What to do on a signal; zero is the end of the script. -/
  traps : List (Nat × Bytes)
  /-- What the command under way has got so far of the output of others. -/
  outputs : List Bytes
  /-- The status of the commands whose output was taken last. -/
  substituted : Option Nat
  /-- The home directories of users. -/
  homes : String → Option String

namespace Script

def ofBytes (bytes : Bytes) : List Char := Word.ofBytes bytes

def toBytes (text : List Char) : Bytes := Word.toBytes text

/-- The commands of a text. -/
def commandsOf (text : Bytes) : List Action := (Command.parse 1 (ofBytes text)).map .run

/-- Does something before all else. -/
def push (s : Script) (actions : List Action) : Script := { s with todo := actions ++ s.todo }

/-- An option is set. -/
def has (s : Script) (option : Char) : Bool := s.options.contains option

def setVariable (s : Script) (name : String) (value : Bytes) : Script :=
  { s with
    values := s.values.insert name value
    exports := if s.has 'a' && !s.exports.contains name then name :: s.exports else s.exports }

/-- The environment that the script hands on. -/
def environment (s : Script) : Environment :=
  Dictionary.ofList (s.values.toList.filter fun entry => s.exports.contains entry.1)

/-- The letters of all options. -/
def optionLetters : List Char := "ubaCEVvxsnmiIfe".toList

/-! ## Values -/

/-- The value of a parameter, if it has one. -/
def value? (s : Script) (name : String) : Option Bytes :=
  match name.toList with
  | ['$'] => some (Text.encode (toString s.pid))
  | ['?'] => some (Text.encode (toString s.status))
  | ['#'] => some (Text.encode (toString s.arguments.length))
  | ['!'] => s.background.getLast?.map fun pid => Text.encode (toString pid)
  | ['-'] => some (toBytes (optionLetters.filter s.has))
  | ['0'] => some s.name
  | digits =>
    if digits.all Char.isDigit then
      s.arguments[digits.foldl (fun n c => n * 10 + (c.toNat - 48)) 0 - 1]?
    else s.values.get? name

def separatorName : String := "IFS"

/-- The bytes that divide fields. -/
def separators (s : Script) : Bytes := (s.values.get? separatorName).getD [32, 9, 10]

/-- A separator that is not seen where there are others. -/
def isSoft (b : UInt8) : Bool := b = 32 || b = 9 || b = 10

/-- The fields finished so far and the one under way.  A separator directly behind the last field
belongs to its end if that is open. -/
structure Fields where
  finished : List Pattern
  current : Option Pattern
  isOpen : Bool

namespace Fields

def none : Fields := ⟨[], .none, false⟩

def append (f : Fields) (quoted : Bool) (text : Bytes) : Fields :=
  { f with
    current := some (f.current.getD [] ++ Pattern.ofBytes quoted text)
    isOpen := false }

def breakOff (f : Fields) : Fields := ⟨f.finished ++ f.current.toList, .none, false⟩

/-- Ends the field under way at a separator.  Soft ones make no empty fields. -/
def separate (f : Fields) (b : UInt8) : Fields :=
  match f.current, isSoft b with
  | some _, soft => { f.breakOff with isOpen := soft }
  | .none, true => f
  | .none, false =>
    if f.isOpen then { f with isOpen := false } else { f with finished := f.finished ++ [[]] }

/-- Appends text that falls into fields at separators. -/
def appendSplit (f : Fields) (separators text : Bytes) : Fields :=
  text.foldl (fun f b =>
    if separators.contains b then f.separate b else f.append false [b]) f

/-- Appends a list of texts, each of them a field. -/
def appendList (f : Fields) (list : List Bytes) : Fields :=
  match list with
  | [] => f
  | first :: rest => rest.foldl (fun f part => f.breakOff.append true part) (f.append true first)

/-- All in one text. -/
def joined (f : Fields) : Pattern := f.breakOff.finished.flatten

end Fields

/-- Output without the line ends behind it. -/
def withoutLineEnds (text : Bytes) : Bytes :=
  (text.reverse.dropWhile (· = 10)).reverse

/-- A tilde at the head of a word, alone or with the name of a user, is a home directory. -/
def withHome (s : Script) (parts : Word) : Word :=
  match parts with
  | .literal ['~'] false :: rest =>
    let user := rest.takeWhile fun part => part ≠ .literal ['/'] false
    let home := match Word.plain? user with
      | some [] => s.values.get? Environment.homeName
      | some name => (s.homes (String.ofList name)).map Text.encode
      | none => none
    match home with
    | some home => .literal (ofBytes home) true :: rest.drop user.length
    | none => parts
  | parts => parts

/-- Why an expansion does not come to its end. -/
inductive Halt where
  | fault (text : String)
  /-- It wants the output of commands, as they run with what the script knows then. -/
  | wants (text : List Char) (line : Nat) (s : Script)

/-- Expansion changes the values of parameters, or is impossible. -/
abbrev Expansion := StateT Script (Except Halt)

def fail {α : Type} (text : String) : Expansion α := throw (.fault text)

/-- What is wrong with an expression. -/
def arithmeticFault (text : List Char) : Arithmetic.Fault → String
  | .expecting what =>
    s!"arithmetic expression: expecting {what}: \"{String.ofList text}\""
  | .divisionByZero => s!"arithmetic expression: division by zero: \"{String.ofList text}\""
  | .noNumber text => s!"Illegal number: {String.ofList text}"

/-- The value of an expression, as text. -/
def calculate (text : List Char) : Expansion Bytes := do
  let s ← get
  let values := fun (name : List Char) =>
    ofBytes ((s.values.get? (String.ofList name)).getD [])
  match Arithmetic.evaluate values text with
  | .ok (n, changes) =>
    modify fun s => changes.reverse.foldl (fun s (name, n) =>
      s.setVariable (String.ofList name) (Text.encode (toString n))) s
    return Text.encode (toString n)
  | .error fault => fail (arithmeticFault text fault)

/-- The output of commands, if the command under way has it already. -/
def outputOf (text : List Char) (line : Nat) : Expansion Bytes := do
  let s ← get
  match s.outputs with
  | output :: rest =>
    set { s with outputs := rest }
    return output
  | [] => throw (.wants text line s)

/-- A value that is missing, or empty where `filled` ones are wanted. -/
def isLacking (filled : Bool) (value : Option Bytes) : Bool :=
  match value with
  | none => true
  | some text => filled && text = []

/-- Appends a value, which falls into fields unless it is quoted. -/
def appendValue (split quoted : Bool) (f : Fields) (text : Bytes) : Expansion Fields := do
  let s ← get
  return if split && !quoted then f.appendSplit s.separators text else f.append quoted text

/-- Appends all the arguments of the script. -/
def appendArguments (split joined quoted : Bool) (f : Fields) : Expansion Fields := do
  let s ← get
  if quoted || !split then
    if joined then return f.append true ((s.separators.take 1).intercalate s.arguments)
    else if !split then return f.append true ([Text.space].intercalate s.arguments)
    else return f.appendList s.arguments
  else
    return s.arguments.zipIdx.foldl (fun f (argument, i) =>
      (if i = 0 then f else f.breakOff).appendSplit s.separators argument) f

/-- Appends what the parts of a word stand for.  `fuel` bounds the depth of operands. -/
def expand (fuel : Nat) (split : Bool) (f : Fields) : Word → Expansion Fields
  | [] => return f
  | part :: rest => do
    let f ← match part with
      | .literal text quoted => pure (f.append quoted (Word.toBytes text))
      | .arguments joined quoted => appendArguments split joined quoted f
      | .substitution text line quoted => do
        let output ← outputOf text line
        appendValue split quoted f output
      | .malformed => fail "Bad substitution"
      | .arithmetic text line quoted =>
        match fuel with
        | 0 => pure f
        | fuel + 1 => do
          let inside ← expand fuel false .none (Word.ofWhole .operand line text)
          let value ← calculate (Word.ofBytes (Pattern.toBytes inside.joined))
          appendValue split quoted f value
      | .parameter name form operand line quoted =>
        match fuel with
        | 0 => pure f
        | fuel + 1 => do
          let s ← get
          let value := s.value? name
          let parts := fun (_ : Unit) => s.withHome (Word.ofOperand quoted line operand)
          let pattern := do
            let inside ← expand fuel false .none (s.withHome (Word.ofText line operand))
            return inside.joined
          let text := do
            let inside ← expand fuel false .none (parts ())
            return Pattern.toBytes inside.joined
          let present := appendValue split quoted f (value.getD [])
          match form with
          | .value =>
            if value.isNone && s.has 'u' then fail s!"{name}: parameter not set" else present
          | .length =>
            if value.isNone && s.has 'u' then fail s!"{name}: parameter not set"
            else appendValue split quoted f (Text.encode (toString (value.getD []).length))
          | .orElse filled =>
            if isLacking filled value then expand fuel split f (parts ()) else present
          | .orAssign filled =>
            if !isLacking filled value then present
            else
              let text ← text
              modify fun s => s.setVariable name text
              appendValue split quoted f text
          | .orFail filled =>
            if !isLacking filled value then present
            else
              let text ← text
              let usual := if filled then "parameter not set or null" else "parameter not set"
              fail s!"{name}: {if operand = [] then usual else Text.decodeLossy text}"
          | .ifSet filled =>
            if isLacking filled value then pure (if quoted then f.append true [] else f)
            else expand fuel split f (parts ())
          | .withoutEnd longest =>
            let text := value.getD []
            let pattern ← pattern
            let kept := (Pattern.tailStart? longest pattern text).getD text.length
            appendValue split quoted f (text.take kept)
          | .withoutStart longest =>
            let text := value.getD []
            let pattern ← pattern
            let dropped := (Pattern.headLength? longest pattern text).getD 0
            appendValue split quoted f (text.drop dropped)
    expand fuel split f rest

/-- How deep operands may lie in each other. -/
def depthLimit : Nat := 64

/-- A pair of quotes around no argument at all is no field. -/
def isNothing (s : Script) (parts : Word) : Bool :=
  let isOnly := parts.all fun part =>
    match part with
    | .arguments _ _ => true
    | .literal text quoted => text = [] && quoted
    | _ => false
  isOnly && s.arguments = [] && parts.any (fun part => part = .arguments false true)

/-- The fields that words stand for.  `filesMatching` finds the files that a pattern matches. -/
def fields (filesMatching : Pattern → List Bytes) : List Word → Expansion (List Bytes)
  | [] => return []
  | parts :: rest => do
    let s ← get
    let f ← expand depthLimit true .none (s.withHome parts)
    let found := if s.isNothing parts then [] else f.breakOff.finished
    let here := found.flatMap fun pattern =>
      match if pattern.isActive && !s.has 'f' then filesMatching pattern else [] with
      | [] => [pattern.toBytes]
      | files => files
    return here ++ (← fields filesMatching rest)

/-- The pattern that a word stands for, in one piece. -/
def pattern (parts : Word) : Expansion Pattern := do
  let s ← get
  let f ← expand depthLimit false .none (s.withHome parts)
  return f.joined

/-- The text that a word stands for, in one piece. -/
def text (parts : Word) : Expansion Bytes := do
  return Pattern.toBytes (← pattern parts)

/-- The values of assignments, each of which sees those before it. -/
def assign : List (String × Word) → Expansion (List (String × Bytes))
  | [] => return []
  | (name, parts) :: rest => do
    let value ← text parts
    if (← get).readOnly.contains name then fail s!"{name}: is read only"
    modify fun s => s.setVariable name value
    return (name, value) :: (← assign rest)

/-! ## Loops and functions -/

/-- What is left to do behind the loop that is under way: from its next turn on, or without it.
Descriptors changed since are put back. -/
def leaveLoop (goesOn : Bool) : List Action → Option (List Action)
  | [] => none
  | .giveBack .. :: _ => none
  | .endText label isFile :: rest => (leaveLoop goesOn rest).map (.endText label isFile :: ·)
  | .restore table :: rest => (leaveLoop goesOn rest).map (.restore table :: ·)
  | .again condition onSuccess body :: rest =>
    some (if goesOn then .again condition onSuccess body :: rest else .setStatus 0 :: rest)
  | .each line name items body :: rest =>
    some (if goesOn then .each line name items body :: rest else .setStatus 0 :: rest)
  | _ :: rest => leaveLoop goesOn rest

/-- What is left to do behind so many loops. -/
def leaveLoops (goesOn : Bool) : Nat → List Action → Option (List Action)
  | 0, todo => some todo
  | 1, todo => leaveLoop goesOn todo
  | count + 1, todo => (leaveLoop false todo).bind (leaveLoops goesOn count)

/-- What is left to do behind the function or the file that is under way. -/
def leaveFunction : List Action → Option (List Action)
  | [] => none
  | .giveBack arguments saved :: rest => some (.giveBack arguments saved :: rest)
  | .endText label true :: rest => some (.endText label true :: rest)
  | .endText label false :: rest => (leaveFunction rest).map (.endText label false :: ·)
  | .restore table :: rest => (leaveFunction rest).map (.restore table :: ·)
  | _ :: rest => leaveFunction rest

/-- Keeps the old value of a variable for the end of the function that is under way, if one is. -/
def save (name : String) (old : Option Bytes) : List Action → Option (List Action)
  | [] => none
  | .giveBack arguments saved :: rest =>
    let saved := if (saved.lookup name).isSome then saved else (name, old) :: saved
    some (.giveBack arguments saved :: rest)
  | action :: rest => (save name old rest).map (action :: ·)

/-- The descriptors that the script has put aside until it is done with others. -/
def aside (s : Script) : List DescriptorTable :=
  s.todo.filterMap fun action =>
    match action with
    | .restore table => some table
    | _ => none

/-- A failure would be noticed: the script goes one way or the other by it. -/
def isTested (s : Script) : Bool :=
  s.todo.any fun action =>
    match action with
    | .branch .. => true
    | .invert => true
    | _ => false

end Script

end PipeShell
