import PipeShell.Regex.Span

/-!
# What is wrong with a pattern

A fault has a kind, which fixes its wording, and the span it is about; one that
repeats something earlier also points there.  The report shows the pattern with
the spans marked below it.  A pattern of several lines is shown with their
numbers, and a span that goes on over a line end is only named.
-/

set_option autoImplicit false

namespace PipeShell.Regex

inductive FaultKind where
  | classEscapeInvalid
  | classRangeInvalid
  | classRangeLiteral
  | classUnclosed
  | decimalEmpty
  | decimalInvalid
  | escapeHexEmpty
  | escapeHexInvalid
  | escapeHexInvalidDigit
  | escapeUnexpectedEnd
  | escapeUnrecognized
  | flagDanglingNegation
  | flagDuplicate
  | flagRepeatedNegation
  | flagUnexpectedEnd
  | flagUnrecognized
  | groupNameDuplicate
  | groupNameEmpty
  | groupNameInvalid
  | groupNameUnexpectedEnd
  | groupUnclosed
  | groupUnopened
  | nestLimitExceeded
  | repetitionCountInvalid
  | repetitionCountEmpty
  | repetitionCountUnclosed
  | repetitionMissing
  | boundaryUnclosed
  | boundaryUnrecognized
  | boundaryUnexpectedEnd
  | propertyNameInvalid
  | backreference
  | lookAround
  | unicodeNotAllowed
  | invalidUtf8
  | propertyNotFound
  | propertyValueNotFound
  | namedClassNotFound
  | caseFoldingUnavailable
  deriving DecidableEq, Repr

/-- How deep groups, repetitions and classes may be nested. -/
def nestLimit : Nat := 250

def FaultKind.message : FaultKind → String
  | classEscapeInvalid => "invalid escape sequence found in character class"
  | classRangeInvalid => "invalid character class range, the start must be <= the end"
  | classRangeLiteral => "invalid range boundary, must be a literal"
  | classUnclosed => "unclosed character class"
  | decimalEmpty => "decimal literal empty"
  | decimalInvalid => "decimal literal invalid"
  | escapeHexEmpty => "hexadecimal literal empty"
  | escapeHexInvalid => "hexadecimal literal is not a Unicode scalar value"
  | escapeHexInvalidDigit => "invalid hexadecimal digit"
  | escapeUnexpectedEnd => "incomplete escape sequence, reached end of pattern prematurely"
  | escapeUnrecognized => "unrecognized escape sequence"
  | flagDanglingNegation => "dangling flag negation operator"
  | flagDuplicate => "duplicate flag"
  | flagRepeatedNegation => "flag negation operator repeated"
  | flagUnexpectedEnd => "expected flag but got end of regex"
  | flagUnrecognized => "unrecognized flag"
  | groupNameDuplicate => "duplicate capture group name"
  | groupNameEmpty => "empty capture group name"
  | groupNameInvalid => "invalid capture group character"
  | groupNameUnexpectedEnd => "unclosed capture group name"
  | groupUnclosed => "unclosed group"
  | groupUnopened => "unopened group"
  | nestLimitExceeded =>
    s!"exceed the maximum number of nested parentheses/brackets ({nestLimit})"
  | repetitionCountInvalid =>
    "invalid repetition count range, the start must be <= the end"
  | repetitionCountEmpty => "repetition quantifier expects a valid decimal"
  | repetitionCountUnclosed => "unclosed counted repetition"
  | repetitionMissing => "repetition operator missing expression"
  | boundaryUnclosed =>
    "special word boundary assertion is either unclosed or contains an invalid character"
  | boundaryUnrecognized =>
    "unrecognized special word boundary assertion, valid choices are: start, end, " ++
      "start-half or end-half"
  | boundaryUnexpectedEnd =>
    "found either the beginning of a special word boundary or a bounded repetition on a \\b " ++
      "with an opening brace, but no closing brace"
  | propertyNameInvalid => "invalid Unicode character class"
  | backreference => "backreferences are not supported"
  | lookAround => "look-around, including look-ahead and look-behind, is not supported"
  | unicodeNotAllowed => "Unicode not allowed here"
  | invalidUtf8 => "pattern can match invalid UTF-8"
  | propertyNotFound => "Unicode property not found"
  | propertyValueNotFound => "Unicode property value not found"
  | namedClassNotFound =>
    "Unicode-aware Perl class not found (make sure the unicode-perl feature is enabled)"
  | caseFoldingUnavailable =>
    "Unicode-aware case insensitivity matching is not available " ++
      "(make sure the unicode-case feature is enabled)"

structure Fault where
  kind : FaultKind
  span : Span
  /-- What stands earlier in the pattern and is repeated at the span. -/
  earlier : Option Span
  deriving DecidableEq, Repr

namespace Fault

/-- The lines of a pattern without their ends.  A line end in the last place begins no line. -/
def linesOf (pattern : List Char) : List (List Char) :=
  let withoutReturn := fun (line : List Char) =>
    if line.getLast? = some '\r' then line.dropLast else line
  let pieces := pattern.splitOn '\n'
  let last := pieces.getLast?.getD []
  pieces.dropLast.map withoutReturn ++ if last = [] then [] else [last]

/-- The marks below a line: one for each character of a span, and at least one. -/
def marks (indent : Nat) (spans : List Span) : String :=
  let (text, _) := spans.foldl (fun (text, place) (span : Span) =>
    let gap := span.first.column - 1 - place
    let width := max 1 (span.behind.column - span.first.column)
    ((text.pushn ' ' gap).pushn '^' width, place + gap + width)) ("".pushn ' ' indent, 0)
  text

/-- A line of the pattern behind its label, and the marks below it if there are any. -/
def shownLine (label : String) (line : List Char) (spans : List Span) : String :=
  let marked := if spans = [] then "" else marks label.length spans ++ "\n"
  label ++ String.ofList line ++ "\n" ++ marked

def spans (f : Fault) : List Span :=
  (f.span :: f.earlier.toList).mergeSort Span.before

/-- The pattern line by line, the spans that lie in one line marked. -/
def excerpt (f : Fault) (pattern : List Char) : String :=
  let lines := linesOf pattern
  let count := lines.length + if pattern.getLast? = some '\n' then 1 else 0
  let width := (toString count).length
  let marked := f.spans.filter Span.isOneLine
  String.join (lines.zipIdx.map fun (line, i) =>
    let number := toString (i + 1)
    let label := if count ≤ 1 then "    "
      else "".pushn ' ' (width - number.length) ++ number ++ ": "
    shownLine label line (marked.filter fun span => span.first.line = i + 1))

/-- Where a span of several lines lies. -/
def extent (span : Span) : String :=
  s!"on line {span.first.line} (column {span.first.column}) through line " ++
    s!"{span.behind.line} (column {span.behind.column - 1})"

/-- All that is said of the fault in a pattern. -/
def report (f : Fault) (pattern : String) : String :=
  let text := pattern.toList
  let heading := "regex parse error:\n"
  let wording := s!"error: {f.kind.message}"
  if text.contains '\n' then
    let divider := "".pushn '~' 79 ++ "\n"
    let extents := (f.spans.filter fun span => !span.isOneLine).map extent
    let named := if extents = [] then "" else "\n".intercalate extents ++ "\n"
    heading ++ divider ++ f.excerpt text ++ divider ++ named ++ wording
  else heading ++ f.excerpt text ++ wording

end Fault

end PipeShell.Regex
