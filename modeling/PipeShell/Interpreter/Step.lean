import PipeShell.Interpreter.Commands

/-!
# Steps of a script

One step takes the next action of a script, which may start other processes,
read or write, or only change what the script knows.
-/

set_option autoImplicit false

namespace PipeShell.Machine

/-! ## Simple commands -/

/-- Runs a command whose words are known.  `table` has its redirections. -/
def runWords (m : Machine) (p : Running) (s : Script) (line : Nat) (table : DescriptorTable)
    (given : List (String × Bytes)) (argv : List Bytes) : Machine :=
  let redirected := { p with table }
  match argv with
  | [] => m.goOn p (settle s (s.substituted.getD 0))
  | name :: arguments =>
    let shown := Text.decodeLossy name
    let saved := savedValues s (given.map Prod.fst)
    let told := given.foldl (fun (s : Script) (name, value) => s.setVariable name value) s
    match s.functions.lookup shown with
    | some body =>
      m.goOn redirected ({ told with arguments, substituted := none }.push
        [.run body, .giveBack s.arguments saved, .restore p.table])
    | none =>
      if isSpecial shown then m.runSpecial redirected s line p.table given shown arguments
      else if isBuiltin shown then
        m.runBuiltin redirected (told.push [.revert saved]) line p.table given shown arguments
      else m.runProgram redirected s line p.table given argv false

/-- Runs a simple command of which all is known. -/
def perform (m : Machine) (p : Running) (s : Script) (line : Nat) (argv : List Bytes)
    (redirects : List (Redirect × Bytes)) (given : List (String × Bytes)) : Machine :=
  match m.redirect p p.table redirects with
  | .ok (table, m) => m.runWords p s line table given argv
  | .error text =>
    let name := (argv.head?.map Text.decodeLossy).getD ""
    if isSpecial name && (s.functions.lookup name).isNone then
      m.giveUp p s (remarkOfText s line text) 2
    else m.say p (settle s 2) (remarkOfText s line text)

/-- A simple command as the option that shows commands shows it. -/
def traceOf (given : List (String × Bytes)) (argv : List Bytes) : ByteArray :=
  let shown := given.map fun (name, value) => Text.encode (name ++ "=") ++ value
  Text.packed (Text.encode "+ " ++ [Text.space].intercalate (shown ++ argv) ++ [10])

/-- What the words of a simple command stand for. -/
structure Expanded where
  argv : List Bytes
  redirects : List (Redirect × Bytes)
  given : List (String × Bytes)
  /-- What the script knows before the assignments. -/
  before : Script

/-- Expands a simple command. -/
def expandSimple (m : Machine) (p : Running) (words : List Word) (redirects : List Redirect) :
    Script.Expansion Expanded := do
  let given := words.takeWhile fun parts => (Word.assignment? parts).isSome
  let argv ← Script.fields (m.filesMatching p) (words.drop given.length)
  let redirects ← redirectTexts redirects
  let before ← get
  let given ← Script.assign (given.filterMap Word.assignment?)
  return { argv, redirects, given, before }

/-- Assignments before a command hold on if there is no command, or one whose mistakes end the
script. -/
def isLasting (argv : List Bytes) : Bool :=
  match argv with
  | [] => true
  | name :: _ => isSpecial (Text.decodeLossy name) && name ≠ Text.encode "exec"

/-- Runs a simple command. -/
def runSimple (m : Machine) (p : Running) (s : Script) (c : Command) (line : Nat)
    (words : List Word) (redirects : List Redirect) : Machine :=
  m.expanding p s c line (m.expandSimple p words redirects) fun e after =>
    let s := if isLasting e.argv then after else { e.before with outputs := [] }
    if s.has 'x' && !(e.argv = [] && e.given = []) then
      m.say p (s.push [.perform line e.argv e.redirects e.given]) (traceOf e.given e.argv)
    else m.perform p s line e.argv e.redirects e.given

/-! ## Compound commands -/

/-- Chooses the commands of the first case that matches. -/
def chooseCase (subject : Bytes) :
    List (List Word × List Command) → Script.Expansion (Option (List Command))
  | [] => return none
  | (patterns, body) :: rest => do
    let found ← patterns.anyM fun parts => do
      return (← Script.pattern parts).matchesText subject
    if found then return some body else chooseCase subject rest

/-- Starts a command in the background, where it has nothing to read. -/
def runBackground (m : Machine) (p : Running) (s : Script) (c : Command) : Machine :=
  let table := match m.openFor p p.table (Text.encode "/dev/null") .reading false with
    | .ok (number, table, _) => moved table number 0
    | .error _ => p.table
  let (child, m) := m.forkCommands p s table [c]
  m.goOn p (settle { s with background := s.background ++ [child] } 0)

def runCommand (m : Machine) (p : Running) (s : Script) (c : Command) : Machine :=
  match c with
  | .simple line words redirects => m.runSimple p s c line words redirects
  | .pipeline parts =>
    let (children, m) := m.startParts p s none parts
    m.resume p (.awaiting children true s)
  | .andThen first onSuccess second =>
    m.goOn p (s.push [.run first, .branch onSuccess [.run second] []])
  | .negated c => m.goOn p (s.push [.run c, .invert])
  | .background c => m.runBackground p s c
  | .choice condition yes no =>
    let no := if no.isEmpty then [.setStatus 0] else no.map .run
    m.goOn p (s.push (condition.map .run ++ [.branch true (yes.map .run) no]))
  | .loop condition onSuccess body => m.goOn p (s.push [.loop condition onSuccess body 0])
  | .each line name items body =>
    m.expanding p s c line (Script.fields (m.filesMatching p) items) fun values s =>
      m.goOn p ({ s with substituted := none }.push
        ((if values = [] then [Action.setStatus 0] else []) ++ [Action.each line name values body]))
  | .select line subject cases =>
    let chosen : Script.Expansion (Option (List Command)) := do
      chooseCase (← Script.text subject) cases
    m.expanding p s c line chosen fun body s =>
      m.goOn p ({ s with status := 0, substituted := none }.push ((body.getD []).map .run))
  | .group body => m.goOn p (s.push (body.map .run))
  | .apart body =>
    let (child, m) := m.forkCommands p s p.table body
    m.resume p (.awaiting [child] true s)
  | .redirected line inner redirects =>
    m.expanding p s c line (redirectTexts redirects) fun targets s =>
      match m.redirect p p.table targets with
      | .error text => m.say p (settle s 2) (remarkOfText s line text)
      | .ok (table, m) => m.goOn { p with table } (s.push [.run inner, .restore p.table])
  | .define name body =>
    let others := s.functions.filter fun entry => entry.1 ≠ name
    m.goOn p (settle { s with functions := (name, body) :: others } 0)
  | .mistake line text => m.giveUp p s (remarkOfText s line s!"Syntax error: {text}") 2

/-! ## Actions -/

/-- Takes the next action of a script. -/
def runAction (m : Machine) (p : Running) (s : Script) : Machine :=
  match s.todo with
  | [] => m.goOn p { s with todo := [.exit s.status] }
  | action :: rest =>
    let s := { s with todo := rest }
    match action with
    | .run c => if s.has 'n' then m.goOn p s else m.runCommand p s c
    | .perform line argv redirects given => m.perform p s line argv redirects given
    | .branch onSuccess yes no =>
      m.goOn p (s.push (if decide (s.status = 0) == onSuccess then yes else no))
    | .invert => m.goOn p { s with status := if s.status = 0 then 1 else 0 }
    | .setStatus status => m.goOn p { s with status }
    | .restore table => m.goOn { p with table } s
    | .loop condition onSuccess body last =>
      m.goOn p (s.push (condition.map .run ++ [.branch onSuccess
        (body.map .run ++ [.again condition onSuccess body]) [.setStatus last]]))
    | .again condition onSuccess body =>
      m.goOn p (s.push [.loop condition onSuccess body s.status])
    | .each _ _ [] _ => m.goOn p s
    | .each line name (item :: items) body =>
      match nameFault? s name with
      | some text => m.giveUp p s (remarkOfText s line text) 2
      | none =>
        m.goOn p ((s.setVariable name item).push
          (body.map .run ++ [.each line name items body]))
    | .revert saved => m.goOn p (restoreVariables s saved)
    | .giveBack arguments saved =>
      m.goOn p (settle (restoreVariables { s with arguments } saved) s.status)
    | .endText label _ => m.goOn p (settle { s with label } s.status)
    | .exit status =>
      match s.traps.lookup 0 with
      | some text =>
        m.goOn p { s with
          traps := s.traps.filter fun entry => entry.1 ≠ 0
          status
          todo := Script.commandsOf text ++ [.exit status] }
      | none => m.resume p (Task.exit status)

end PipeShell.Machine
