import PipeShell.Error
import PipeShell.Text.WhiteSpace

/-!
# Lines and their segments

A line is one or more stages separated by `|`, then possibly `<` and an input
file, then possibly `>` and an output file.  Redirections belong to the whole
pipeline, so no `|` may follow one.  `Line.parse` gives the `Segments` of a
line, each trimmed, or the first rule that the line breaks.

A line is judged twice.  `violation?` looks at the line without its spacing, so
that `a | | b` and `a||b` are judged alike; `cut` then takes the line apart as
it stands and refuses pieces with nothing in them.
-/

set_option autoImplicit false

namespace PipeShell

/-- A line taken apart.  Every piece is trimmed and none is blank. -/
structure Segments where
  stages : List String
  input : Option String
  output : Option String
  deriving DecidableEq, Repr

namespace Line

open Text

/-! ## The rules -/

def inputToken : Char := '<'

def outputToken : Char := '>'

def pipeToken : Char := '|'

/-- Spacing is what the rules do not see.  It is narrower than white space. -/
def isSpacing (c : Char) : Bool :=
  c = ' ' || c = '\t' || c = '\n' || c = '\r'

/-- The line as the rules see it. -/
def bare (line : List Char) : List Char :=
  line.filter fun c => !isSpacing c

/-- Where `token` stands in the text, ascending. -/
def positions (token : Char) (text : List Char) : List Nat :=
  (text.zipIdx.filter fun place => place.1 = token).map Prod.snd

def duplicate? (token : Char) (text : List Char) : Option LineError :=
  if text.count token > 1 then some (.duplicateRedirect token) else none

def adjacentPipes? (text : List Char) : Option LineError :=
  if (text.zip text.tail).any (· = (pipeToken, pipeToken)) then some .adjacentPipes else none

def misordered? (text : List Char) : Option LineError :=
  match text.idxOf? inputToken, text.idxOf? outputToken with
  | some input, some output => if input > output then some .redirectOrder else none
  | _, _ => none

/-- What a pipe at one place and a redirection at another do to each other. -/
def clash? (pipe redirect : Nat) : Option LineError :=
  if pipe > redirect then some .pipeAfterRedirect
  else if redirect = pipe + 1 then some .pipeTouchesRedirect
  else none

/-- The first clash, pipe by pipe from the left, with the input redirection looked at first. -/
def clashing? (text : List Char) : Option LineError :=
  let redirects := (text.idxOf? inputToken).toList ++ (text.idxOf? outputToken).toList
  (positions pipeToken text).findSome? fun pipe => redirects.findSome? (clash? pipe)

def dangling? (token : Char) (text : List Char) : Option LineError :=
  if text.head? = some token || text.getLast? = some token then some (.danglingToken token)
  else none

def withoutToken (token : Char) (text : List Char) : List Char :=
  text.filter (· ≠ token)

/-- A token may not begin or end the text that is left when the tokens looked at before it are
taken out, and something other than tokens has to be left at the end. -/
def dangles? (text : List Char) : Option LineError :=
  let unwritten := withoutToken outputToken text
  let unread := withoutToken inputToken unwritten
  dangling? outputToken text
    <|> dangling? inputToken unwritten
    <|> dangling? pipeToken unread
    <|> if withoutToken pipeToken unread = [] then some .noCommand else none

/-- The first rule that a text without spacing breaks. -/
def violation? (text : List Char) : Option LineError :=
  (if text = [] then some .empty else none)
    <|> duplicate? inputToken text
    <|> duplicate? outputToken text
    <|> adjacentPipes? text
    <|> misordered? text
    <|> clashing? text
    <|> dangles? text

/-! ## The cut -/

/-- A piece of the line, trimmed.  A blank one gives the error. -/
def piece (blank : LineError) (text : List Char) : Except LineError String :=
  match trimChars text with
  | [] => .error blank
  | trimmed => .ok (String.ofList trimmed)

/-- The text before `token` and the file named after it. -/
def cutTarget (token : Char) (text : List Char) : Except LineError (List Char × Option String) :=
  match cutOnce token text with
  | none => .ok (text, none)
  | some (head, tail) => do
    let target ← piece (.missingTarget token) tail
    return (head, some target)

/-- Output is cut off first, then input; the rest falls into stages. -/
def cut (text : List Char) : Except LineError Segments := do
  let (rest, output) ← cutTarget outputToken text
  let (rest, input) ← cutTarget inputToken rest
  let stages ← (rest.splitOn pipeToken).mapM (piece .emptyStage)
  return { stages, input, output }

/-- The segments of a line, or the first rule that it breaks.  Nothing is opened or started. -/
def parse (line : String) : Except LineError Segments :=
  match violation? (bare line.toList) with
  | some cause => .error cause
  | none => cut line.toList

end Line

end PipeShell
