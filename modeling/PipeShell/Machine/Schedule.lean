import PipeShell.Interpreter.Begin
import PipeShell.Machine.Streams

/-!
# Taking turns

Processes advance in turns, one call at a time, until the one that is waited
for has ended.  When none can move, time passes to the next moment at which a
sleeper wakes.
-/

set_option autoImplicit false

namespace PipeShell.Machine

/-- The most that one call moves. -/
def pieceSize : Nat := 65536

/-! ## Complaints -/

/-- What a filter says of an operand it cannot open. -/
def openComplaint (p : Running) (operand : Bytes) (cause : Errno) : String :=
  let reason := cause.description
  match p.program with
  | "head" => s!"{p.called}: cannot open {Quotation.always operand} for reading: {reason}\n"
  | "sort" => s!"{p.called}: cannot read: {Quotation.asNeeded operand}: {reason}\n"
  | _ => s!"{p.called}: {Quotation.asNeeded operand}: {reason}\n"

/-- What programs call standard input where a dash would not do. -/
def standardInput : Bytes := Text.encode "standard input"

/-- What a filter says of input it cannot read. -/
def readComplaint (p : Running) (name : Option Bytes) (cause : Errno) : String :=
  let operand := name.getD [45]
  let reason := cause.description
  match p.program with
  | "head" =>
    let operand := if isDash name then standardInput else operand
    s!"{p.called}: error reading {Quotation.always operand}: {reason}\n"
  | "sort" => s!"{p.called}: read failed: {Quotation.asNeeded operand}: {reason}\n"
  | "tr" => s!"{p.called}: read error: {reason}\n"
  | "uniq" => s!"{p.called}: error reading {Quotation.always operand}: {reason}\n"
  | "wc" => s!"{p.called}: {Quotation.asNeeded (name.getD standardInput)}: {reason}\n"
  | _ => s!"{p.called}: {Quotation.asNeeded operand}: {reason}\n"

/-- How a program that cannot give its output to a file ends. -/
def divertFailure (p : Running) (path : Bytes) (cause : Errno) : Task :=
  let what := s!"{Quotation.asNeeded path}: {cause.description}\n"
  match p.program with
  | "sort" => Task.complain s!"{p.called}: open failed: {what}" 2
  | _ => Task.complain s!"{p.called}: {what}" 1

/-! ## Filters -/

/-- How a filter goes on after an input that it cannot use.  A report on part of the inputs makes no
sense. -/
def afterFailure (program : String) (f : Filter) (inputs : List (Option Bytes)) : Task :=
  match program with
  | "sort" => Task.exit 2
  | "uniq" => Task.exit 1
  | _ => .filter f none inputs 1

/-- A process says something on standard error and goes on. -/
def warn (m : Machine) (p : Running) (text : String) (next : Task) : Machine :=
  m.resume p (Task.warn text next)

/-- A process prints and goes on. -/
def printFor (m : Machine) (p : Running) (data : ByteArray) (next : Task) : Machine :=
  m.resume p (Task.print p.program p.called data next)

/-- Has a filter begin an open input. -/
def beginInput (m : Machine) (p : Running) (f : Filter) (source : Source)
    (inputs : List (Option Bytes)) (code : Int) : Machine :=
  if p.program = "cat" && m.isCircular p source.number then
    let table := if source.number = 0 then p.table else p.table.close source.number
    let shown := Quotation.asNeeded (source.name.getD [45])
    m.warn { p with table } s!"{p.called}: {shown}: input file is output file\n"
      (.filter f none inputs 1)
  else
    let (f, out) := f.beginInput source.name
    m.printFor p out (.filter f (some source) inputs code)

/-- Has a filter end an input, which is closed if the filter opened it. -/
def endInput (m : Machine) (p : Running) (f : Filter) (source : Source)
    (inputs : List (Option Bytes)) (code : Int) : Machine :=
  let table := if source.number = 0 then p.table else p.table.close source.number
  let (f, out) := f.endInput source.name
  m.printFor { p with table } out (.filter f none inputs code)

/-- Has a filter open its next input, or end when there is none. -/
def nextInput (m : Machine) (p : Running) (f : Filter) (inputs : List (Option Bytes))
    (code : Int) : Machine :=
  match inputs with
  | [] =>
    let last := Task.print p.program p.called f.finish (Task.exit code)
    m.resume p (match f.target? with
      | some target => .divert target last
      | none => last)
  | name :: rest =>
    if isDash name then m.beginInput p f { number := 0, name } rest code
    else
      let path := name.getD []
      match m.openFor p p.table path .reading false with
      | .error cause => m.warn p (openComplaint p path cause) (afterFailure p.program f rest)
      | .ok (number, table, m) => m.beginInput { p with table } f { number, name } rest code

/-- What came of a call: nothing if the process has to wait. -/
abbrev Advance := Option Machine

/-- Has a filter read a piece. -/
def readPiece (m : Machine) (p : Running) (f : Filter) (source : Source)
    (inputs : List (Option Bytes)) (code : Int) : Advance :=
  if f.isSated then some (m.endInput p f source inputs code)
  else
    let failed := fun (m : Machine) (cause : Errno) =>
      let (f, out) := f.endInput source.name
      m.warn p (readComplaint p source.name cause)
        (Task.print p.program p.called out (afterFailure p.program f inputs))
    match p.table.get? source.number with
    | none => some (failed m .badDescriptor)
    | some d =>
      match m.readFrom d.file (f.appetite pieceSize) with
      | (.waiting, _) => none
      | (.ended, m) => some (m.endInput p f source inputs code)
      | (.failed cause, m) => some (failed m cause)
      | (.data data, m) =>
        let (f, out) := f.feed data
        let m := m.putBack d.file (f.surplus data out)
        some (m.printFor p out (.filter f (some source) inputs code))

/-! ## Scripts -/

/-- Has a script read a line for its variables. -/
def readLine (m : Machine) (p : Running) (names : List String) (raw : Bool) (line : Bytes)
    (s : Script) : Advance :=
  let given := fun (m : Machine) (line : List (UInt8 × Bool)) (status : Nat) =>
    m.goOn p (settle (giveWords s line names) status)
  let plain := fun (line : Bytes) => line.map fun b => (b, false)
  match p.table.get? 0 with
  | none => some (given m [] 1)
  | some d =>
    match m.readFrom d.file (max 1 (m.lineAhead d.file)) with
    | (.waiting, _) => none
    | (.data data, m) =>
      let line := line ++ data.data.toList
      if line.getLast? ≠ some Text.newline then some (m.resume p (.reading names raw line s))
      else if raw then some (given m (plain line.dropLast) 0)
      else match quotedBytes line.dropLast with
        | some line => some (given m line 0)
        | none => some (m.resume p (.reading names raw (line.take (line.length - 2)) s))
    | (_, m) => some (given m (if raw then plain line else (quotedBytes line).getD []) 1)

/-- Has a script read itself. -/
def loadScript (m : Machine) (p : Running) (text : Bytes) (s : Script) : Advance :=
  match p.table.get? 0 with
  | none => some (m.resume p (Task.exit 0))
  | some d =>
    match m.readFrom d.file pieceSize with
    | (.waiting, _) => none
    | (.data data, m) => some (m.resume p (.loading (text ++ data.data.toList) s))
    | (_, m) => some (m.goOn p { s with todo := Script.commandsOf text })

/-- Forgets a child that has ended, once its parent knows how. -/
def reap (m : Machine) (child : Nat) : Machine :=
  { m with
    ended := m.ended.filter fun entry => entry.1 ≠ child
    roster := m.roster.reap child }

/-- The status that a script sees of a child. -/
def statusOf (m : Machine) (child : Nat) : Nat :=
  (((m.ended.lookup child).map WaitStatus.code).getD 0).toNat

/-- What a script says of a child that has ended. -/
def remarkOn (m : Machine) (child : Nat) : String :=
  match m.ended.lookup child with
  | some (.signaled signal) => ((signalText? signal).map (· ++ "\n")).getD ""
  | _ => ""

/-- Has a script wait for its children. -/
def awaitChildren (m : Machine) (p : Running) (children : List Nat) (tells : Bool) (s : Script) :
    Advance :=
  if children.all fun child => (m.ended.lookup child).isSome then
    let status := ((children.getLast?).map m.statusOf).getD 0
    let text := if tells then String.join (children.map m.remarkOn) else ""
    let m := children.foldl reap m
    some (m.warn p text (.script (settle s status)))
  else none

/-- Has a script take the output of a child. -/
def collectOutput (m : Machine) (p : Running) (child number : Nat) (text : Bytes) (c : Command)
    (s : Script) : Advance :=
  match p.table.get? number with
  | some d =>
    match m.readFrom d.file pieceSize with
    | (.waiting, _) => none
    | (.data data, m) =>
      some (m.resume p (.collecting child number (text ++ data.data.toList) c s))
    | (_, m) =>
      some (m.resume { p with table := p.table.close number } (.collecting child number text c s))
  | none =>
    if (m.ended.lookup child).isNone then none
    else
      let outputs := s.outputs ++ [Script.withoutLineEnds text]
      let s := { s with outputs, substituted := some (m.statusOf child) }
      some ((m.reap child).warn p (m.remarkOn child) (.script (s.push [.run c])))

/-! ## One call -/

/-- Has a process begin a program. -/
def beginProgram (m : Machine) (p : Running) (program : String) (argv : List Bytes) : Machine :=
  let p := { p with program, called := Text.decodeLossy (argv.headD []) }
  if program = "sh" then m.beginScript p argv
  else
    let call : Call := {
      name := p.called, arguments := argv.drop 1, now := m.clock, extentOf := m.extentOf p }
    m.resume p (Installed.firstTask program call)

/-- A process makes its next call, unless it has to wait. -/
def advance (m : Machine) (p : Running) : Advance :=
  match p.task with
  | .finish status => some (m.conclude p.pid status)
  | .start program argv => some (m.beginProgram p program argv)
  | .emit number data next failed =>
    if data.size = 0 then some (m.resume p next)
    else match p.table.get? number with
      | none => some (m.resume p (failed .badDescriptor))
      | some d =>
        match m.writeTo d.file data with
        | (.waiting, _) => none
        | (.broken, m) => some (m.resume p (.finish .brokenPipe))
        | (.failed cause, m) => some (m.resume p (failed cause))
        | (.wrote count, m) =>
          if count = data.size then some (m.resume p next)
          else some (m.resume p (.emit number (data.extract count data.size) next failed))
  | .claim path next =>
    match m.openFor p p.table path .writing true with
    | .error cause => some (m.resume p (divertFailure p path cause))
    | .ok (_, _, m) => some (m.resume p next)
  | .divert path next =>
    match m.openFor p p.table path .writing false with
    | .error cause => some (m.resume p (divertFailure p path cause))
    | .ok (number, table, m) =>
      let table := ((table.duplicate number 1).getD table).close number
      some (m.resume { p with table } next)
  | .filter f none inputs code => some (m.nextInput p f inputs code)
  | .filter f (some source) inputs code => m.readPiece p f source inputs code
  | .repeating data => some (m.printFor p data (.repeating data))
  | .sleeping deadline => if deadline ≤ m.clock then some (m.resume p (Task.exit 0)) else none
  | .script s => some (m.runAction p s)
  | .reading names raw line s => m.readLine p names raw line s
  | .loading text s => m.loadScript p text s
  | .awaiting children tells s => m.awaitChildren p children tells s
  | .collecting child number text c s => m.collectOutput p child number text c s

/-! ## Turns -/

/-- Every process gets a turn, in the order in which they were started.  Also says whether any
moved. -/
def turn (m : Machine) : Machine × Bool :=
  (m.running.map Running.pid).foldl (fun (m, moved) pid =>
    match m.running.find? fun process => process.pid = pid with
    | none => (m, moved)
    | some process =>
      match m.advance process with
      | some m => (m, true)
      | none => (m, moved)) (m, false)

/-- The next moment at which a sleeper wakes. -/
def nextWaking? (m : Machine) : Option Nat :=
  (m.running.filterMap fun process =>
    match process.task with
    | .sleeping deadline => if m.clock < deadline then some deadline else none
    | _ => none).min?

/-- Lets processes take turns until one has ended, at most `turns` times. -/
def runUntil (pid : Nat) : Nat → Machine → Machine
  | 0, m => m
  | turns + 1, m =>
    if (m.ended.lookup pid).isSome then m
    else match m.turn with
      | (m, true) => runUntil pid turns m
      | (m, false) =>
        match m.nextWaking? with
        | some clock => runUntil pid turns { m with clock }
        | none => m

/-- How many turns a process is given to end. -/
def patience : Nat := 10000000

/-- Waits for a process to end.  One that cannot move any more, or not within the machine's
patience, is ended. -/
def wait (m : Machine) (pid : Nat) : Except Errno WaitStatus × Machine :=
  match m.roster.member? pid with
  | none => (.error .noChild, m)
  | some _ =>
    let m := m.runUntil pid patience
    let m := if (m.ended.lookup pid).isSome then m else m.conclude pid .killed
    let status := (m.ended.lookup pid).getD .killed
    (.ok status, { m with
      ended := m.ended.filter fun entry => entry.1 ≠ pid
      roster := m.roster.reap pid })

end PipeShell.Machine
