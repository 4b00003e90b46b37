import PipeShell.Interpreter.Voice

/-!
# Signals

The names and meanings of signals, sending them, and what a script does when it
gets one.
-/

set_option autoImplicit false

namespace PipeShell.Machine

/-- The names of signals, from 1 on.  One without a name has its number. -/
def signalNames : List String :=
  ["HUP", "INT", "QUIT", "ILL", "TRAP", "ABRT", "BUS", "FPE", "KILL", "USR1", "SEGV", "USR2",
    "PIPE", "ALRM", "TERM", "16", "CHLD", "CONT", "STOP", "TSTP", "TTIN", "TTOU", "URG", "XCPU",
    "XFSZ", "VTALRM", "PROF", "WINCH", "\x49\x4f", "PWR", "SYS", "32", "33"]

/-- The greatest signal. -/
def lastSignal : Nat := 64

def signalName (signal : Nat) : String :=
  if signal = 0 then "EXIT"
  else match signalNames[signal - 1]? with
    | some name => name
    | none =>
      if signal = 34 then "RTMIN"
      else if signal = lastSignal then "RTMAX"
      else if signal < 50 then s!"RTMIN+{signal - 34}"
      else s!"RTMAX-{lastSignal - signal}"

/-- The signal with a number or a name. -/
def signalOf? (text : Bytes) : Option Nat :=
  match number? text with
  | some n => if n ≤ lastSignal then some n else none
  | none => (List.range (lastSignal + 1)).find? fun n => signalName n = Text.decodeLossy text

/-- What a script says of a child that a signal ended, if it says anything. -/
def signalText? (signal : Int) : Option String :=
  let names := ["Hangup", "", "Quit", "Illegal instruction", "Trace/breakpoint trap", "Aborted",
    "Bus error", "Floating point exception", "Killed", "User defined signal 1",
    "Segmentation fault", "User defined signal 2", "", "Alarm clock", "Terminated", "Stack fault",
    "Child exited", "Continued", "Stopped (signal)", "Stopped", "Stopped (tty input)",
    "Stopped (tty output)", "Urgent I/O condition", "CPU time limit exceeded",
    "File size limit exceeded", "Virtual timer expired", "Profiling timer expired",
    "Window changed", "I/O possible", "Power failure", "Bad system call"]
  if 34 ≤ signal then some s!"Real-time signal {signal - 34}"
  else match names[signal.toNat - 1]? with
    | some "" => none
    | some text => some text
    | none => some s!"Unknown signal {signal}"

/-- A process does not notice these signals: those that tell of a child, of going on, of urgent data
and of a new window size. -/
def isUnnoticed (signal : Nat) : Bool := [0, 17, 18, 23, 28].contains signal

/-! ## Sending -/

/-- The signal that `kill` is told to send, and to which processes; or the letter of an option that
does not exist. -/
def killTarget (arguments : List Bytes) : Except Char (Nat × List Bytes) :=
  match arguments with
  | first :: rest =>
    match Script.ofBytes first, rest with
    | ['-', 's'], name :: rest => .ok ((signalOf? name).getD 15, rest)
    | ['-', '-'], rest => .ok (15, rest)
    | '-' :: c :: name, rest =>
      match signalOf? (Script.toBytes (c :: name)) with
      | some signal => .ok (signal, rest)
      | none => .error c
    | _, _ => .ok (15, arguments)
  | [] => .ok (15, [])

/-- Sends a signal to processes.  One that the script itself gets ends it, unless there is a trap
for it. -/
def sendSignal (m : Machine) (p : Running) (s : Script) (signal : Nat) (pids : List Nat) :
    Machine × Option Script :=
  let m := (pids.filter (· ≠ p.pid)).foldl (fun (m : Machine) pid =>
    match m.running.find? fun other => other.pid = pid with
    | some other =>
      if isUnnoticed signal then m else m.resume other (.finish (.signaled signal))
    | none => m) m
  if !pids.contains p.pid || isUnnoticed signal then (m, some s)
  else match s.traps.lookup signal with
    | some text =>
      if signal = 9 then (m, none) else (m, some (s.push (Script.commandsOf text)))
    | none => (m, none)

def killUsage : String :=
  "Usage: kill [-s sigspec | -signum | -sigspec] [pid | job]... or\nkill -l [exitstatus]"

/-- The names that `kill -l` gives. -/
def killList (arguments : List Bytes) : Answer :=
  match arguments with
  | [] =>
    let names := (List.range lastSignal).map fun n => signalName (n + 1)
    ⟨Text.encode (String.join (("0" :: names).map (· ++ "\n"))), [], 0⟩
  | first :: _ =>
    match number? first with
    | none => .wrong s!"Illegal number: {Text.decodeLossy first}"
    | some n =>
      let signal := if 128 < n then n - 128 else n
      if signal ≤ lastSignal then ⟨Text.encode (signalName signal ++ "\n"), [], 0⟩
      else .wrong s!"invalid signal number or exit status: {Text.decodeLossy first}"

def runKill (m : Machine) (p : Running) (s : Script) (line : Nat) (arguments : List Bytes) :
    Machine :=
  let reply := m.answer p s line "kill"
  if arguments.head? = some (Text.encode "-l") then reply (killList (arguments.drop 1))
  else match killTarget arguments with
    | .error c => reply (.wrong s!"Illegal option -{c}")
    | .ok (_, []) => reply (.wrong killUsage)
    | .ok (signal, targets) =>
      match targets.find? fun target => (number? target).isNone with
      | some bad => reply (.wrong s!"Illegal number: {Text.decodeLossy bad}")
      | none =>
        let pids := targets.filterMap number?
        let isThere := fun (pid : Nat) => m.running.any fun other => other.pid = pid
        match m.sendSignal p (settle s 0) signal pids with
        | (m, none) => m.resume p (.finish (.signaled signal))
        | (m, some next) =>
          if pids.all isThere then m.goOn p next
          else m.answer p s line "kill" ⟨[], ["No such process\n"], 1⟩

/-! ## Traps -/

/-- A text between quotes, as the interpreter would read it back.  Single quotes stand between
double ones. -/
def singleQuoted (text : Bytes) : Bytes :=
  let runs := text.splitBy fun a b => decide (a = 39) == decide (b = 39)
  let quoted := runs.flatMap fun run =>
    let mark : Bytes := if run.head? = some 39 then [34] else [39]
    mark ++ run ++ mark
  if text.head?.getD 39 = 39 then [39, 39] ++ quoted else quoted

/-- The traps, as commands that set them. -/
def trapList (s : Script) : Bytes :=
  let ordered := s.traps.mergeSort fun a b => a.1 ≤ b.1
  ordered.flatMap fun (signal, text) =>
    Text.encode "trap -- " ++ singleQuoted text ++ Text.encode s!" {signalName signal}\n"

/-- Sets traps: the first argument is what to do, the others are signals.  Also gives the first
that is no signal. -/
def setTraps (s : Script) (arguments : List Bytes) : Script × Option Bytes :=
  match arguments with
  | text :: (first :: rest) =>
    let names := (first :: rest).takeWhile fun name => (signalOf? name).isSome
    let signals := names.filterMap signalOf?
    let others := s.traps.filter fun entry => !signals.contains entry.1
    let traps := if text = [45] then others
      else others ++ signals.map fun signal => (signal, text)
    ({ s with traps }, (first :: rest)[names.length]?)
  | [signal] =>
    match signalOf? signal with
    | some n => ({ s with traps := s.traps.filter fun entry => entry.1 ≠ n }, none)
    | none => (s, some signal)
  | [] => (s, none)

end PipeShell.Machine
