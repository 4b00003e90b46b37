import PipeShell.Regex.Bracket

/-!
# From text to tree

A pattern is read piece by piece.  Pieces that follow one another are kept
until their group, branch or pattern ends; open groups and the branches before
a `|` wait on a stack.  `Node.parse` gives the tree of a pattern or its first
fault.
-/

set_option autoImplicit false

namespace PipeShell.Regex

/-- Pieces that follow one another, the last first. -/
structure Sequence where
  first : Position
  parts : List Node

namespace Sequence

def start (p : Position) : Sequence := { first := p, parts := [] }

def push (s : Sequence) (node : Node) : Sequence := { s with parts := node :: s.parts }

/-- The pieces as one node that ends at a position. -/
def toNode (s : Sequence) (behind : Position) : Node :=
  match s.parts with
  | [] => .empty ⟨s.first, behind⟩
  | [node] => node
  | parts => .concat ⟨s.first, behind⟩ parts.reverse

end Sequence

/-- What a sequence will be part of. -/
inductive Frame where
  /-- A group after the sequence before it.  `spaced` tells whether gaps were skipped there. -/
  | group (before : Sequence) (span : Span) (captures : Bool) (items : List FlagItem)
      (spaced : Bool)
  /-- Branches that have ended, the last first. -/
  | branches (first : Position) (done : List Node)

/-- The state of reading a pattern: the frames, innermost first, and the sequence under way. -/
structure Draft where
  frames : List Frame
  sequence : Sequence

namespace Scan

/-! ## Single pieces -/

def nodeOf : Escape → Node
  | .literal l => .literal l
  | .letter span negated name => .letter span negated name
  | .property span negated name => .property span negated name
  | .assertion span kind => .assertion span kind

/-- A piece of one character or one escape. -/
def primitive (c : Char) : Scan Node := do
  if c = '\\' then return nodeOf (← escape)
  else
    let span ← nextSpan
    step
    if c = '.' then return .dot span
    else if c = '^' then return .assertion span .lineStart
    else if c = '$' then return .assertion span .lineEnd
    else return .literal { span, char := c, isByteCode := false }

/-! ## Repetitions -/

/-- The piece that a repetition is about, and the sequence before it. -/
def repeated (d : Draft) : Scan (Node × Sequence) := do
  match d.sequence.parts with
  | [] => refuse .repetitionMissing (.point (← here))
  | .empty _ :: _ => refuse .repetitionMissing (.point (← here))
  | .flags .. :: _ => refuse .repetitionMissing (.point (← here))
  | node :: parts => return (node, { d.sequence with parts })

def pushRepetition (d : Draft) (before : Sequence) (node : Node) (least : Nat)
    (most : Option Nat) : Scan Draft := do
  let span : Span := { node.span with behind := ← here }
  return { d with sequence := before.push (.repetition span least most node) }

/-- A repetition by a sign.  A question mark behind it only says which match is preferred. -/
def signRepetition (d : Draft) (least : Nat) (most : Option Nat) : Scan Draft := do
  let (node, before) ← repeated d
  step
  if (← next?) = some '?' then step
  pushRepetition d before node least most

def countOf (count : Except Fault Nat) : Scan Nat :=
  match count with
  | .ok n => return n
  | .error fault => throw fault

/-- The least and the most times of a counted repetition, from behind its opening brace to its
closing brace. -/
def bounds (start : Position) : Scan (Nat × Option Nat) := do
  let count ← decimal
  match ← next? with
  | none => refuse .repetitionCountUnclosed (← since start)
  | some ',' =>
    match ← advance? with
    | none => refuse .repetitionCountUnclosed (← since start)
    | some '\x7d' => return (← countOf count, none)
    | some _ =>
      let least ← countOf count
      let most ← countOf (← decimal)
      return (least, some most)
  | some _ =>
    let n ← countOf count
    return (n, some n)

def countedRepetition (d : Draft) : Scan Draft := do
  let start ← here
  let (node, before) ← repeated d
  if (← advance?).isNone then refuse .repetitionCountUnclosed (← since start)
  else
    let (least, most) ← bounds start
    if (← next?) ≠ some '\x7d' then refuse .repetitionCountUnclosed (← since start)
    else
      if (← advance?) = some '?' then step
      let span ← since start
      if most.any (· < least) then refuse .repetitionCountInvalid span
      else pushRepetition d before node least most

/-! ## Groups -/

/-- The flags up to a colon or a closing parenthesis, each with its span, the last first. -/
def flagItems (seen : List (FlagItem × Span)) : Nat → Scan (List (FlagItem × Span))
  | 0 => return seen
  | fuel + 1 => do
    match ← next? with
    | none => refuse .flagUnexpectedEnd (.point (← here))
    | some c =>
      if c = ':' || c = ')' then
        match seen with
        | (.negation, span) :: _ => refuse .flagDanglingNegation span
        | _ => return seen
      else match FlagItem.ofChar? c with
        | none => refuse .flagUnrecognized (← nextSpan)
        | some item =>
          let span ← nextSpan
          match seen.lookup item with
          | some earlier =>
            let kind := if item = .negation then .flagRepeatedNegation else .flagDuplicate
            throw { kind, span, earlier := some earlier }
          | none =>
            step
            flagItems ((item, span) :: seen) fuel

/-- The characters other than ASCII that are neither letters nor digits, by their blocks. -/
def symbolBlocks : List (Nat × Nat) :=
  [(0x80, 0xA9), (0xAB, 0xB1), (0xB4, 0xB4), (0xB6, 0xB8), (0xBB, 0xBB), (0xBF, 0xBF),
    (0xD7, 0xD7), (0xF7, 0xF7), (0x2000, 0x206F), (0x20A0, 0x20FF), (0x2190, 0x245F),
    (0x2500, 0x2BFF), (0x3000, 0x3004), (0xD800, 0xF8FF), (0xFE00, 0xFE6F), (0xFFE0, 0xFFFF),
    (0x1F000, 0x1FAFF), (0xE0000, 0x10FFFF)]

def isNameChar (first : Bool) (c : Char) : Bool :=
  if c.toNat < 0x80 then
    c.isAlpha || c = '_' || (!first && (c.isDigit || c = '.' || c = '[' || c = ']'))
  else !symbolBlocks.any fun block => block.1 ≤ c.toNat && c.toNat ≤ block.2

/-- The name of a group up to its closing angle bracket. -/
def nameChars (first : Bool) : Nat → Scan (List Char)
  | 0 => return []
  | fuel + 1 => do
    match ← next? with
    | none => refuse .groupNameUnexpectedEnd (.point (← here))
    | some c =>
      if c = '>' then return []
      else if !isNameChar first c then refuse .groupNameInvalid (← nextSpan)
      else
        step
        return c :: (← nameChars false fuel)

/-- Reads the name of a group and notes it. -/
def groupName : Scan Unit := do
  let start ← here
  let name ← nameChars true ((← get).rest.length + 1)
  let span ← since start
  step
  if name = [] then refuse .groupNameEmpty (.point start)
  else match (← get).names.lookup name with
    | some earlier => throw { kind := .groupNameDuplicate, span, earlier := some earlier }
    | none => modify fun cursor => { cursor with names := (name, span) :: cursor.names }

/-- What begins a look-around. -/
def lookArounds : List String := ["?=", "?!", "?<=", "?<!"]

/-- What begins the name of a group. -/
def nameSigns : List String := ["?P<", "?<"]

/-- Goes past the first of the signs that comes next, if one does. -/
def takingAny (signs : List String) : Scan Bool := do
  match signs with
  | [] => return false
  | sign :: rest => if ← taking sign then return true else takingAny rest

/-- Goes into a group whose parenthesis was read.  The flags hold inside it. -/
def enterGroup (d : Draft) (span : Span) (captures : Bool) (items : List FlagItem) :
    Scan Draft := do
  let spaced := (← get).spaced
  let inside := (FlagItem.setting? items .ignoreSpace).getD spaced
  modify fun cursor => { cursor with spaced := inside }
  return { frames := .group d.sequence span captures items spaced :: d.frames
           sequence := .start (← here) }

/-- Reads what follows `(?`: flags for the rest of the group, or a group with flags. -/
def flagGroup (d : Draft) (openSpan : Span) (inner : Position) : Scan Draft := do
  if (← next?).isNone then refuse .groupUnclosed openSpan
  else
    let found ← flagItems [] ((← get).rest.length + 1)
    let items := found.reverse.map Prod.fst
    let isDirective := (← next?) = some ')'
    step
    if !isDirective then enterGroup d openSpan false items
    else if items = [] then refuse .repetitionMissing (.point inner)
    else
      let spaced := (FlagItem.setting? items .ignoreSpace).getD (← get).spaced
      modify fun cursor => { cursor with spaced }
      let span ← since openSpan.first
      return { d with sequence := d.sequence.push (.flags span items) }

def openGroup (d : Draft) : Scan Draft := do
  let openSpan ← nextSpan
  step
  skipGap
  if ← takingAny lookArounds then refuse .lookAround (← since openSpan.first)
  else
    let inner ← here
    if ← takingAny nameSigns then
      groupName
      enterGroup d openSpan true []
    else if ← taking "?" then flagGroup d openSpan inner
    else enterGroup d openSpan true []

/-- Ends a branch at a `|`. -/
def endBranch (d : Draft) : Scan Draft := do
  let node := d.sequence.toNode (← here)
  let frames := match d.frames with
    | .branches first done :: frames => .branches first (node :: done) :: frames
    | frames => .branches d.sequence.first [node] :: frames
  step
  return { frames, sequence := .start (← here) }

/-- The sequence under way, together with the branches before it, and the frames around them. -/
def Draft.joined (d : Draft) (behind : Position) : Node × List Frame :=
  let node := d.sequence.toNode behind
  match d.frames with
  | .branches first done :: frames =>
    (.alternation ⟨first, behind⟩ (node :: done).reverse, frames)
  | frames => (node, frames)

def closeGroup (d : Draft) : Scan Draft := do
  let (inner, frames) := Draft.joined d (← here)
  match frames with
  | .group before span captures items spaced :: frames =>
    modify fun cursor => { cursor with spaced }
    step
    let span : Span := { span with behind := ← here }
    return { frames, sequence := before.push (.group span captures items inner) }
  | _ => refuse .groupUnopened (← nextSpan)

/-! ## The whole pattern -/

/-- Ends the pattern.  A group that is still open is a fault. -/
def finish (d : Draft) : Scan Node := do
  let (node, frames) := Draft.joined d (← here)
  match frames with
  | .group _ span _ _ _ :: _ => refuse .groupUnclosed span
  | _ => return node

/-- One step of reading a pattern, at the given character. -/
def piece (d : Draft) (c : Char) : Scan Draft := do
  if c = '(' then openGroup d
  else if c = ')' then closeGroup d
  else if c = '|' then endBranch d
  else if c = '[' then return { d with sequence := d.sequence.push (← bracket) }
  else if c = '?' then signRepetition d 0 (some 1)
  else if c = '*' then signRepetition d 0 none
  else if c = '+' then signRepetition d 1 none
  else if c = '\x7b' then countedRepetition d
  else return { d with sequence := d.sequence.push (← primitive c) }

def pieces (d : Draft) : Nat → Scan Node
  | 0 => finish d
  | fuel + 1 => do
    skipGap
    match ← next? with
    | none => finish d
    | some c => pieces (← piece d c) fuel

end Scan

/-- The tree of a pattern, or its first fault.  Every step takes a character. -/
def Node.parse (pattern : List Char) : Except Fault Node := do
  let cursor : Cursor := { rest := pattern, here := .start, spaced := false, names := [] }
  let draft : Draft := { frames := [], sequence := .start .start }
  let (node, _) ← (Scan.pieces draft (pattern.length + 1)).run cursor
  node.checkNesting 0
  return node

end PipeShell.Regex
