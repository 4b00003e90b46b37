import PipeShell.Supervisor

/-!
# The read loop

The shell reads a line, evaluates it and goes on, until a line asks it to exit
or the input ends.  Every line is kept in the history before it is evaluated.
A line that asks for completion is replaced by an earlier line, if there is one
that fits and the line behind it, which is the user's answer, is empty.
-/

set_option autoImplicit false

namespace PipeShell

namespace ReadLoop

/-! ## Lines of input -/

def lineFeed : UInt8 := 10

def isLineEnd (c : Char) : Bool := c = '\n' || c = '\r'

/-- Removes line feeds and carriage returns at the end. -/
def withoutLineEnd (line : List Char) : List Char :=
  (line.reverse.dropWhile isLineEnd).reverse

/-- The first line of the input and what is left, or nothing at its end. -/
def nextLine (input : Bytes) : Option (String × Bytes) :=
  if input = [] then none
  else
    let head := input.takeWhile (· ≠ lineFeed)
    some (String.ofList (withoutLineEnd (Text.lossyChars head)), input.drop (head.length + 1))

theorem length_nextLine_lt {input rest : Bytes} {line : String}
    (h : nextLine input = some (line, rest)) : rest.length < input.length := by
  unfold nextLine at h
  split at h
  · simp at h
  · next hne =>
    have hpos : 0 < input.length := List.length_pos_iff.2 hne
    simp only [Option.some.injEq, Prod.mk.injEq] at h
    rw [← h.2, List.length_drop]
    omega

/-! ## Completion -/

def noMatchText : String := "No matching command found.\n"

def canceledText : String := "Command canceled.\n"

def proposalText (candidate : String) : String :=
  s!"Execute: {candidate}\n(Press enter to accept, any other key + enter to cancel)"

/-- What a line of input comes to. -/
structure Resolved where
  /-- The line to evaluate, if there is one. -/
  line : Option String
  /-- What is printed on the way. -/
  shown : List String
  rest : Bytes
  deriving DecidableEq

/-- The line that a line of input stands for, and the input behind it. -/
def resolve (history : History) (line : String) (rest : Bytes) : Resolved :=
  if History.wantsCompletion line then
    match history.complete (Text.trimEnd line) with
    | none => { line := none, shown := [noMatchText], rest }
    | some candidate =>
      match nextLine rest with
      | some (answer, rest) =>
        if answer = "" then
          { line := some candidate, shown := [proposalText candidate], rest }
        else { line := none, shown := [proposalText candidate, canceledText], rest }
      | none => { line := none, shown := [proposalText candidate, canceledText], rest }
  else { line := some line, shown := [], rest }

theorem length_resolve_le (history : History) (line : String) (rest : Bytes) :
    (resolve history line rest).rest.length ≤ rest.length := by
  unfold resolve
  split
  · split
    · exact Nat.le_refl _
    · split
      · next heq =>
        have hlt := length_nextLine_lt heq
        split
        · exact Nat.le_of_lt hlt
        · exact Nat.le_of_lt hlt
      · exact Nat.le_refl _
  · exact Nat.le_refl _

end ReadLoop

namespace Shell

def print (sh : Shell) (text : String) : Shell :=
  { sh with machine := sh.machine.print (Text.encode text) }

def printAll (sh : Shell) (texts : List String) : Shell :=
  texts.foldl print sh

/-- Reports an error on standard error. -/
def report (sh : Shell) (cause : ShellError) : Shell :=
  { sh with machine := sh.machine.printError s!"psh: {cause.message}\n" }

def remember (sh : Shell) (line : String) : Shell :=
  { sh with session := { sh.session with history := sh.session.history.push line } }

/-- An interactive shell asks for each line. -/
def ask (sh : Shell) (interactive : Bool) : Shell :=
  if interactive then sh.print (sh.session.prompt ++ " ") else sh

end Shell

namespace ReadLoop

variable {σ : Type}

/-- Why the loop came to its end. -/
inductive Ending where
  /-- The input ended. -/
  | inputEnded
  /-- A line asked to exit. -/
  | exited
  /-- The shell did not survive a line. -/
  | aborted
  deriving DecidableEq, Repr

/-- Remembers a line and evaluates it.  Gives the reason to end the loop, if there is one. -/
def evaluate (l : Launcher σ) (line : String) (world : Shell × σ) :
    Option Ending × (Shell × σ) :=
  match eval l line (world.1.remember line, world.2) with
  | (.ok .proceed, world) => (none, world)
  | (.ok .exit, world) => (some .exited, world)
  | (.error .aborted, world) => (some .aborted, world)
  | (.error cause, (sh, own)) => (none, (sh.report cause, own))

/-- Reads and evaluates lines until the end. -/
def run (l : Launcher σ) (interactive : Bool) (input : Bytes) (world : Shell × σ) :
    Ending × (Shell × σ) :=
  let (sh, own) := world
  let sh := sh.ask interactive
  match _ : nextLine input with
  | none => (.inputEnded, (if interactive then sh.print "\n" else sh, own))
  | some (line, rest) =>
    let resolved := resolve sh.session.history line rest
    let sh := sh.printAll resolved.shown
    match resolved.line with
    | none => run l interactive resolved.rest (sh, own)
    | some line =>
      match evaluate l line (sh, own) with
      | (some ending, world) => (ending, world)
      | (none, world) => run l interactive resolved.rest world
termination_by input.length
decreasing_by
  all_goals
    exact Nat.lt_of_le_of_lt (length_resolve_le _ _ _) (length_nextLine_lt ‹_›)

end ReadLoop

end PipeShell
