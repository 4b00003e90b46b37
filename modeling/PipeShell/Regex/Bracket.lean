import PipeShell.Regex.Scan

/-!
# Classes in brackets

A class is a union of items: characters, ranges, named classes and further
classes in brackets.  Two unions may be joined by `&&`, `--` or `~~`, from left
to right and all with the same strength.  Open brackets and pending operators
are kept on a stack.
-/

set_option autoImplicit false

namespace PipeShell.Regex

/-- Items read so far, the last first, and the span they cover. -/
structure Union where
  span : Span
  items : List ClassSet

namespace Union

def start (p : Position) : Union := { span := .point p, items := [] }

def push (u : Union) (item : ClassSet) : Union :=
  { span := ⟨if u.items.isEmpty then item.span.first else u.span.first, item.span.behind⟩
    items := item :: u.items }

def toSet (u : Union) : ClassSet :=
  match u.items with
  | [] => .empty u.span
  | [item] => item
  | items => .union u.span items.reverse

end Union

/-- What a union inside a class will be part of. -/
inductive BracketFrame where
  /-- A class that was opened inside another union, which is empty for the outermost class. -/
  | opened (outer : Union) (span : Span) (negated : Bool)
  | pending (operator : SetOperator) (left : ClassSet)

/-- The state of reading a class: the frames, innermost first, and the union under way. -/
structure BracketDraft where
  frames : List BracketFrame
  union : Union

namespace Scan

/-- The fault of a class that is never closed: the innermost one is named. -/
def unclosed {α : Type} (frames : List BracketFrame) : Scan α :=
  let span? := frames.findSome? fun frame =>
    match frame with
    | .opened _ span _ => some span
    | .pending .. => none
  refuse .classUnclosed (span?.getD (.point .start))

/-- The hyphens at the head of a class, which stand for themselves. -/
def leadingHyphens (start : Position) (u : Union) : Nat → Scan Union
  | 0 => return u
  | fuel + 1 => do
    if (← next?) = some '-' then
      let hyphen : Literal := { span := ← nextSpan, char := '-', isByteCode := false }
      if (← advance?).isNone then refuse .classUnclosed (.point start)
      else leadingHyphens start (u.push (.literal hyphen)) fuel
    else return u

/-- Goes into a class.  A closing bracket in the first place stands for itself. -/
def openBracket (d : BracketDraft) : Scan BracketDraft := do
  let start ← here
  let first ← advance?
  let negated := first = some '^'
  let first ← if negated then advance? else pure first
  if first.isNone then refuse .classUnclosed (← since start)
  else
    let union ← leadingHyphens start (.start (← here)) (← get).rest.length
    let next ← next?
    let union ← if union.items.isEmpty && next = some ']' then do
        let closing : Literal := { span := ← nextSpan, char := ']', isByteCode := false }
        if (← advance?).isNone then refuse .classUnclosed (← since start)
        else pure (union.push (.literal closing))
      else pure union
    return { frames := .opened d.union (← since start) negated :: d.frames, union }

/-- The union under way, joined to what stands before a pending operator. -/
def BracketDraft.joined (d : BracketDraft) : ClassSet × List BracketFrame :=
  match d.frames with
  | .pending operator left :: frames => (.combine operator left d.union.toSet, frames)
  | frames => (d.union.toSet, frames)

/-- Leaves a class.  The outermost one is finished then. -/
def closeBracket (d : BracketDraft) : Scan (BracketDraft ⊕ Node) := do
  let (set, frames) := BracketDraft.joined d
  step
  match frames with
  | .opened outer span negated :: frames =>
    let span : Span := { span with behind := ← here }
    if frames.isEmpty then return .inr (.bracket span negated set)
    else return .inl { frames, union := outer.push (.bracket span negated set) }
  | _ => unclosed frames

def setOperator (d : BracketDraft) (operator : SetOperator) : Scan BracketDraft := do
  steps 2
  let (left, frames) := BracketDraft.joined d
  return { frames := .pending operator left :: frames, union := .start (← here) }

/-- A class by its name, as in `[:alpha:]`.  What does not have this form is left alone. -/
def namedClass? : Scan (Option ClassSet) := do
  let before ← get
  match before.rest with
  | '[' :: ':' :: rest =>
    let negated := rest.head? = some '^'
    let text := if negated then rest.drop 1 else rest
    let name := text.takeWhile (· ≠ ':')
    let behind := text.drop name.length
    if [':', ']'].isPrefixOf behind then
      match NamedClass.ofName? (String.ofList name) with
      | some named =>
        steps (before.rest.length - behind.length + 2)
        return some (.named (← since before.here) negated named)
      | none => return none
    else return none
  | _ => return none

/-- A character or escape inside a class. -/
def bracketItem : Scan Escape := do
  match ← next? with
  | some '\\' => escape
  | some c =>
    let span ← nextSpan
    step
    return .literal { span, char := c, isByteCode := false }
  | none => refuse .escapeUnexpectedEnd (.point (← here))

/-- An escape as an item of a class. -/
def itemOf : Escape → Scan ClassSet
  | .literal l => return .literal l
  | .letter span negated name => return .letter span negated name
  | .property span negated name => return .property span negated name
  | .assertion span _ => refuse .classEscapeInvalid span

/-- An escape as an end of a range. -/
def boundOf : Escape → Scan Literal
  | .literal l => return l
  | .letter span _ _ => refuse .classRangeLiteral span
  | .property span _ _ => refuse .classRangeLiteral span
  | .assertion span _ => refuse .classRangeLiteral span

/-- An item, or a range if a hyphen follows that is not itself the last item. -/
def bracketRange (frames : List BracketFrame) : Scan ClassSet := do
  let first ← bracketItem
  skipGap
  match ← next? with
  | none => unclosed frames
  | some c =>
    let behind ← second?
    if c ≠ '-' || behind = some ']' || behind = some '-' then itemOf first
    else if (← advance?).isNone then unclosed frames
    else
      let last ← bracketItem
      let low ← boundOf first
      let high ← boundOf last
      if high.char < low.char then refuse .classRangeInvalid ⟨low.span.first, high.span.behind⟩
      else return .range low high

/-- One step of reading a class, at the given character. -/
def bracketStep (d : BracketDraft) (c : Char) : Scan (BracketDraft ⊕ Node) := do
  let second := (← get).rest[1]?
  if c = '[' then
    match ← (if d.frames.isEmpty then pure none else namedClass?) with
    | some item => return .inl { d with union := d.union.push item }
    | none => return .inl (← openBracket d)
  else if c = ']' then closeBracket d
  else if c = '&' && second = some '&' then return .inl (← setOperator d .intersection)
  else if c = '-' && second = some '-' then return .inl (← setOperator d .difference)
  else if c = '~' && second = some '~' then return .inl (← setOperator d .symmetricDifference)
  else
    let item ← bracketRange d.frames
    return .inl { d with union := d.union.push item }

def bracketSteps (d : BracketDraft) : Nat → Scan Node
  | 0 => unclosed d.frames
  | fuel + 1 => do
    skipGap
    match ← next? with
    | none => unclosed d.frames
    | some c =>
      match ← bracketStep d c with
      | .inl d => bracketSteps d fuel
      | .inr node => return node

/-- Reads a class from its opening bracket on.  Every step takes a character. -/
def bracket : Scan Node := do
  let cursor ← get
  bracketSteps { frames := [], union := .start cursor.here } (cursor.rest.length + 1)

end Scan

end PipeShell.Regex
