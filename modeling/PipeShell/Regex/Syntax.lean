import PipeShell.Regex.Fault

/-!
# Patterns as trees

What a pattern says, piece by piece, with the span of every piece.  Greediness
and the numbers of groups are left out: they do not matter to whether a text
has a match.  `Node.checkNesting` finds the first piece that is nested too deep.
-/

set_option autoImplicit false

namespace PipeShell.Regex

/-! ## Pieces -/

structure Literal where
  span : Span
  char : Char
  /-- Written with two hexadecimal digits, which can also stand for a byte. -/
  isByteCode : Bool
  deriving DecidableEq, Repr

/-- The classes that a single escaped letter names. -/
inductive LetterClass where
  | digit
  | space
  | word
  deriving DecidableEq, Repr

/-- The classes that a name between colons stands for. -/
inductive NamedClass where
  | alnum
  | alpha
  | ascii
  | blank
  | cntrl
  | digit
  | graph
  | lower
  | print
  | punct
  | space
  | upper
  | word
  | xdigit
  deriving DecidableEq, Repr

def NamedClass.ofName? (name : String) : Option NamedClass :=
  [("alnum", alnum), ("alpha", alpha), ("ascii", ascii), ("blank", blank), ("cntrl", cntrl),
    ("digit", digit), ("graph", graph), ("lower", lower), ("print", print), ("punct", punct),
    ("space", space), ("upper", upper), ("word", word), ("xdigit", xdigit)].lookup name

inductive Assertion where
  | lineStart
  | lineEnd
  | textStart
  | textEnd
  | boundary
  | noBoundary
  | wordStart
  | wordEnd
  | wordStartHalf
  | wordEndHalf
  deriving DecidableEq, Repr

inductive Flag where
  | caseInsensitive
  | multiLine
  | dotMatchesNewline
  | swapGreed
  | unicode
  | crlf
  | ignoreSpace
  deriving DecidableEq, Repr

/-- What stands in a list of flags: a flag, or the sign that turns off those behind it. -/
inductive FlagItem where
  | negation
  | flag (flag : Flag)
  deriving DecidableEq, Repr

namespace FlagItem

def ofChar? : Char → Option FlagItem
  | '-' => some negation
  | 'i' => some (flag .caseInsensitive)
  | 'm' => some (flag .multiLine)
  | 's' => some (flag .dotMatchesNewline)
  | 'U' => some (flag .swapGreed)
  | 'u' => some (flag .unicode)
  | 'R' => some (flag .crlf)
  | 'x' => some (flag .ignoreSpace)
  | _ => none

/-- The flags of a list, each with whether it is turned on. -/
def settings (items : List FlagItem) : List (Flag × Bool) :=
  (items.foldl (fun (found, enabled) item =>
    match item with
    | negation => (found, false)
    | flag f => (found ++ [(f, enabled)], enabled)) (([] : List (Flag × Bool)), true)).1

/-- What a list of flags says of one of them. -/
def setting? (items : List FlagItem) (f : Flag) : Option Bool :=
  (settings items).lookup f

end FlagItem

inductive SetOperator where
  | intersection
  | difference
  | symmetricDifference
  deriving DecidableEq, Repr

/-- What stands between the brackets of a class. -/
inductive ClassSet where
  | empty (span : Span)
  | literal (l : Literal)
  | range (low high : Literal)
  | named (span : Span) (negated : Bool) (name : NamedClass)
  | letter (span : Span) (negated : Bool) (name : LetterClass)
  /-- The characters with a property. -/
  | property (span : Span) (negated : Bool) (name : String)
  | bracket (span : Span) (negated : Bool) (inner : ClassSet)
  | union (span : Span) (items : List ClassSet)
  | combine (operator : SetOperator) (left right : ClassSet)

inductive Node where
  | empty (span : Span)
  /-- Sets flags for what follows in its group. -/
  | flags (span : Span) (items : List FlagItem)
  | literal (l : Literal)
  | dot (span : Span)
  | assertion (span : Span) (kind : Assertion)
  | letter (span : Span) (negated : Bool) (name : LetterClass)
  | property (span : Span) (negated : Bool) (name : String)
  | bracket (span : Span) (negated : Bool) (inner : ClassSet)
  | repetition (span : Span) (least : Nat) (most : Option Nat) (inner : Node)
  | group (span : Span) (captures : Bool) (items : List FlagItem) (inner : Node)
  | alternation (span : Span) (branches : List Node)
  | concat (span : Span) (parts : List Node)

/-! ## Spans -/

def ClassSet.span : ClassSet → Span
  | empty span => span
  | literal l => l.span
  | range low high => ⟨low.span.first, high.span.behind⟩
  | named span _ _ => span
  | letter span _ _ => span
  | property span _ _ => span
  | bracket span _ _ => span
  | union span _ => span
  | combine _ left right => ⟨left.span.first, right.span.behind⟩

def Node.span : Node → Span
  | empty span => span
  | flags span _ => span
  | literal l => l.span
  | dot span => span
  | assertion span _ => span
  | letter span _ _ => span
  | property span _ _ => span
  | bracket span _ _ => span
  | repetition span _ _ _ => span
  | group span _ _ _ => span
  | alternation span _ => span
  | concat span _ => span

/-! ## Nesting -/

/-- The depth of a piece inside one at the given depth, unless the limit is passed. -/
def deeper (depth : Nat) (span : Span) : Except Fault Nat :=
  if nestLimit ≤ depth then .error ⟨.nestLimitExceeded, span, none⟩ else .ok (depth + 1)

mutual

/-- Checks that the pieces of a class stay within the limit. -/
def ClassSet.checkNesting (depth : Nat) : ClassSet → Except Fault Unit
  | .bracket span _ inner => do
    let depth ← deeper depth span
    inner.checkNesting depth
  | .union span items => do
    let depth ← deeper depth span
    ClassSet.checkNestingAll depth items
  | .combine operator left right => do
    let depth ← deeper depth (ClassSet.combine operator left right).span
    left.checkNesting depth
    right.checkNesting depth
  | _ => .ok ()

def ClassSet.checkNestingAll (depth : Nat) : List ClassSet → Except Fault Unit
  | [] => .ok ()
  | item :: rest => do
    item.checkNesting depth
    ClassSet.checkNestingAll depth rest

end

mutual

/-- Checks that the pieces of a pattern stay within the limit. -/
def Node.checkNesting (depth : Nat) : Node → Except Fault Unit
  | .bracket span _ inner => do
    let depth ← deeper depth span
    inner.checkNesting depth
  | .repetition span _ _ inner => do
    let depth ← deeper depth span
    inner.checkNesting depth
  | .group span _ _ inner => do
    let depth ← deeper depth span
    inner.checkNesting depth
  | .alternation span branches => do
    let depth ← deeper depth span
    Node.checkNestingAll depth branches
  | .concat span parts => do
    let depth ← deeper depth span
    Node.checkNestingAll depth parts
  | _ => .ok ()

def Node.checkNestingAll (depth : Nat) : List Node → Except Fault Unit
  | [] => .ok ()
  | node :: rest => do
    node.checkNesting depth
    Node.checkNestingAll depth rest

end

end PipeShell.Regex
