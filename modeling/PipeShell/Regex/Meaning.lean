import PipeShell.Regex.Matcher
import PipeShell.Regex.Parse

/-!
# What a pattern stands for

A tree is turned into a matcher under the flags that hold at each place.  With
the flag `u`, which holds from the start, a pattern is about characters;
without it about bytes, and then it must not be able to match bytes that are no
text.

There are no tables of properties or cases of characters: what would need them
is refused.  Conditions on words need them too, but are refused only when the
matcher is put together.
-/

set_option autoImplicit false

namespace PipeShell.Regex

/-- The flags that matter for whether there is a match. -/
structure Modes where
  caseless : Bool
  multiLine : Bool
  dotMatchesNewline : Bool
  unicode : Bool
  crlf : Bool
  deriving DecidableEq, Repr

namespace Modes

def initial : Modes :=
  { caseless := false, multiLine := false, dotMatchesNewline := false, unicode := true,
    crlf := false }

def put (m : Modes) (setting : Flag × Bool) : Modes :=
  match setting with
  | (.caseInsensitive, value) => { m with caseless := value }
  | (.multiLine, value) => { m with multiLine := value }
  | (.dotMatchesNewline, value) => { m with dotMatchesNewline := value }
  | (.unicode, value) => { m with unicode := value }
  | (.crlf, value) => { m with crlf := value }
  | (.swapGreed, _) => m
  | (.ignoreSpace, _) => m

def putAll (m : Modes) (items : List FlagItem) : Modes :=
  (FlagItem.settings items).foldl put m

/-- The largest code that a set can hold. -/
def last (m : Modes) : Nat := if m.unicode then Ranges.lastChar else Ranges.lastByte

end Modes

def refused {α : Type} (kind : FaultKind) (span : Span) : Except Fault α :=
  .error { kind, span, earlier := none }

/-! ## Sets -/

/-- The set without regard to case, or its complement.  Of bytes only the ASCII ones can be
matched. -/
def finishSet (m : Modes) (span : Span) (negated : Bool) (s : Ranges) : Except Fault Ranges := do
  let s ← if !m.caseless || s.isEmpty then pure s
    else if m.unicode then refused .caseFoldingUnavailable span
    else pure s.foldAscii
  let s := if negated then s.complement m.last else s
  if !m.unicode && !s.isAscii then refused .invalidUtf8 span else return s

/-- The class that a letter names.  Among characters its tables are missing. -/
def letterSet (m : Modes) (span : Span) (negated : Bool) (name : LetterClass) :
    Except Fault Ranges :=
  if m.unicode then refused .namedClassNotFound span
  else if negated then refused .invalidUtf8 span
  else .ok name.ranges

/-- The name of a property without case, spaces and other fillers. -/
def plainName (name : String) : String :=
  let lower := (name.toList.map Char.toLower).filter fun c => c.toNat < 0x80
  let bare := if ['i', 's'].isPrefixOf lower then lower.drop 2 else lower
  String.ofList (bare.filter fun c => !(c = ' ' || c = '_' || c = '-'))

/-- These name values of a property and no property of their own. -/
def valueNames : List String := ["cf", "sc", "lc"]

/-- No property is known. -/
def propertySet (m : Modes) (span : Span) (name : String) : Except Fault Ranges :=
  if !m.unicode then refused .unicodeNotAllowed span
  else if valueNames.contains (plainName name) then refused .propertyValueNotFound span
  else refused .propertyNotFound span

/-- The code of a literal.  A literal that stands for a byte which is no character is refused. -/
def literalCode (m : Modes) (l : Literal) : Except Fault Nat :=
  if !m.unicode && l.isByteCode && Ranges.lastAscii < l.char.toNat then
    refused .invalidUtf8 l.span
  else .ok l.char.toNat

/-- The code of a literal in a class, which holds only single bytes when it is about bytes. -/
def memberCode (m : Modes) (l : Literal) : Except Fault Nat := do
  let code ← literalCode m l
  if !m.unicode && Ranges.lastAscii < code then refused .unicodeNotAllowed l.span else return code

/-- One side of an operator, without regard to case. -/
def operand (m : Modes) (side : ClassSet) (s : Ranges) : Except Fault Ranges :=
  if !m.caseless || s.isEmpty then .ok s
  else if m.unicode then refused .caseFoldingUnavailable side.span
  else .ok s.foldAscii

mutual

/-- The characters or bytes of a class. -/
def ClassSet.ranges (m : Modes) : ClassSet → Except Fault Ranges
  | .empty _ => .ok []
  | .literal l => do
    let code ← memberCode m l
    return [(code, code)]
  | .range low high => do
    let first ← memberCode m low
    let last ← memberCode m high
    return [(first, last)]
  | .named span negated name => finishSet m span negated name.ranges
  | .letter span negated name => letterSet m span negated name
  | .property span _ name => propertySet m span name
  | .bracket span negated inner => do
    let s ← inner.ranges m
    finishSet m span negated s
  | .union _ items => ClassSet.rangesOfAll m items
  | .combine operator left right => do
    let s ← left.ranges m
    let t ← right.ranges m
    let t ← operand m right t
    let s ← operand m left s
    return Ranges.combine m.last operator s t

def ClassSet.rangesOfAll (m : Modes) : List ClassSet → Except Fault Ranges
  | [] => .ok []
  | item :: rest => do
    let s ← item.ranges m
    let t ← ClassSet.rangesOfAll m rest
    return s.union t

end

/-! ## Pieces -/

/-- A character that stands for itself, in both cases where case does not matter. -/
def literalMatcher (m : Modes) (l : Literal) : Except Fault Matcher := do
  let code ← literalCode m l
  if !m.caseless then return .char [(code, code)]
  else if m.unicode then refused .caseFoldingUnavailable l.span
  else return .char (Ranges.foldAscii [(code, code)])

/-- Any character, line ends apart if they are not asked for. -/
def dotMatcher (m : Modes) (span : Span) : Except Fault Matcher :=
  if !m.unicode then refused .invalidUtf8 span
  else if m.dotMatchesNewline then .ok (.char [(0, Ranges.lastChar)])
  else if m.crlf then .ok (.char (Ranges.complement Ranges.lastChar [(10, 10), (13, 13)]))
  else .ok (.char (Ranges.complement Ranges.lastChar [(10, 10)]))

def lookOf (m : Modes) (kind : Assertion) : Look :=
  match kind with
  | .textStart => .textStart
  | .textEnd => .textEnd
  | .lineStart =>
    if !m.multiLine then .textStart else if m.crlf then .lineStartCrlf else .lineStart
  | .lineEnd =>
    if !m.multiLine then .textEnd else if m.crlf then .lineEndCrlf else .lineEnd
  | kind => .word kind (if m.unicode then none else some NamedClass.word.ranges)

mutual

/-- The matcher of a piece under the flags before it, and the flags behind it. -/
def Node.meaning (m : Modes) : Node → Except Fault (Matcher × Modes)
  | .empty _ => .ok (.empty, m)
  | .flags _ items => .ok (.empty, m.putAll items)
  | .literal l => do return (← literalMatcher m l, m)
  | .dot span => do return (← dotMatcher m span, m)
  | .assertion _ kind => .ok (.look (lookOf m kind), m)
  | .letter span negated name => do return (.char (← letterSet m span negated name), m)
  | .property span _ name => do return (.char (← propertySet m span name), m)
  | .bracket span negated inner => do
    let s ← inner.ranges m
    return (.char (← finishSet m span negated s), m)
  | .repetition _ least most inner => do
    let (inner, after) ← inner.meaning m
    return (.repeated least most inner, after)
  | .group _ captures items inner => do
    let (inner, _) ← inner.meaning (m.putAll items)
    return (if captures then .capture inner else inner, m)
  | .alternation _ branches => Node.meaningOfBranches m branches
  | .concat _ parts => Node.meaningOfParts m parts

/-- Pieces one behind the other. -/
def Node.meaningOfParts (m : Modes) : List Node → Except Fault (Matcher × Modes)
  | [] => .ok (.empty, m)
  | node :: rest => do
    let (first, m) ← node.meaning m
    let (second, m) ← Node.meaningOfParts m rest
    return (.seq first second, m)

/-- Any one of the pieces.  Flags set in one of them hold in those behind it. -/
def Node.meaningOfBranches (m : Modes) : List Node → Except Fault (Matcher × Modes)
  | [] => .ok (.char [], m)
  | node :: rest => do
    let (first, m) ← node.meaning m
    let (second, m) ← Node.meaningOfBranches m rest
    return (.either first second, m)

end

end PipeShell.Regex

namespace PipeShell

open Regex

/-- Why a text is no usable pattern. -/
inductive PatternError where
  | malformed (pattern : String) (fault : Fault)
  | tooBig
  /-- The pattern asks for words without saying that they are ASCII words. -/
  | unknownWords
  deriving DecidableEq

namespace PatternError

/-- The bytes that a matcher may take. -/
def sizeLimit : Nat := 10485760

def message : PatternError → String
  | malformed pattern fault => fault.report pattern
  | tooBig => s!"Compiled regex exceeds size limit of {sizeLimit} bytes."
  | unknownWords => "error building NFA"

end PatternError

/-- The matcher of a pattern. -/
def Regex.compile (pattern : String) : Except PatternError Matcher :=
  match Node.parse pattern.toList with
  | .error fault => .error (.malformed pattern fault)
  | .ok node =>
    match node.meaning .initial with
    | .error fault => .error (.malformed pattern fault)
    | .ok (matcher, _) =>
      if PatternError.sizeLimit < matcher.size then .error .tooBig
      else if matcher.hasUnknownWords then .error .unknownWords
      else .ok matcher

end PipeShell
