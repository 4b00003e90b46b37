import PipeShell.Regex.Syntax
import PipeShell.Text.WhiteSpace

/-!
# Reading a pattern

A `Scan` goes through a pattern from left to right and stops at the first
fault.  It knows the position it has reached, the names given to groups so far,
and whether white space and comments between the pieces are skipped.

The escapes are read here; they mean the same inside and outside of classes.
-/

set_option autoImplicit false

namespace PipeShell.Regex

structure Cursor where
  rest : List Char
  here : Position
  /-- White space and comments between pieces stand for nothing. -/
  spaced : Bool
  names : List (List Char × Span)

abbrev Scan := StateT Cursor (Except Fault)

namespace Scan

variable {α : Type}

/-! ## In general -/

def refuse (kind : FaultKind) (span : Span) : Scan α :=
  throw { kind, span, earlier := none }

def here : Scan Position := return (← get).here

def next? : Scan (Option Char) := return (← get).rest.head?

/-- The span from a position up to here. -/
def since (first : Position) : Scan Span := return ⟨first, ← here⟩

/-- The span of the next character. -/
def nextSpan : Scan Span := do
  let cursor ← get
  match cursor.rest with
  | [] => return .point cursor.here
  | c :: _ => return ⟨cursor.here, cursor.here.after c⟩

/-- Goes past the next character. -/
def step : Scan Unit := modify fun cursor =>
  match cursor.rest with
  | [] => cursor
  | c :: rest => { cursor with rest, here := cursor.here.after c }

def steps (count : Nat) : Scan Unit := modify fun cursor =>
  { cursor with
    rest := cursor.rest.drop count
    here := cursor.here.afterAll (cursor.rest.take count) }

/-- Goes past a text if it comes next. -/
def taking (text : String) : Scan Bool := do
  if text.toList.isPrefixOf (← get).rest then
    steps text.length
    return true
  else return false

/-- The length of the white space and the comments at the head of a text. -/
def gapLength (inComment : Bool) : List Char → Nat
  | [] => 0
  | c :: rest =>
    if inComment then gapLength (c ≠ '\n') rest + 1
    else if c = '#' then gapLength true rest + 1
    else if Text.isWhiteSpace c then gapLength false rest + 1
    else 0

/-- Goes past white space and comments where they stand for nothing. -/
def skipGap : Scan Unit := do
  let cursor ← get
  if cursor.spaced then steps (gapLength false cursor.rest)

/-- Goes past the next character and the gap behind it; gives the character that follows. -/
def advance? : Scan (Option Char) := do
  step
  skipGap
  next?

/-- The character behind the next one, gaps apart.  In a comment that is the first character of the
comment itself. -/
def second? : Scan (Option Char) := do
  let cursor ← get
  let rest := cursor.rest.drop 1
  if cursor.spaced then
    let behind := rest.dropWhile Text.isWhiteSpace
    match behind with
    | '#' :: comment =>
      match comment.dropWhile Text.isWhiteSpace with
      | [] => return rest.head?
      | c :: _ => return some c
    | c :: _ => return some c
    | [] => return rest.head?
  else return rest.head?

def takeUpTo (accept : Char → Bool) (gaps : Bool) : Nat → Scan (List Char)
  | 0 => return []
  | fuel + 1 => do
    match ← next? with
    | none => return []
    | some c =>
      if accept c then
        step
        if gaps then skipGap
        return c :: (← takeUpTo accept gaps fuel)
      else return []

/-- All acceptable characters that come next, possibly with gaps between them. -/
def takeWhile (accept : Char → Bool) (gaps : Bool) : Scan (List Char) := do
  takeUpTo accept gaps (← get).rest.length

/-! ## Numbers -/

/-- The largest number that a pattern may hold. -/
def numberLimit : Nat := 4294967295

def valueOf (base : Nat) (digits : List Char) : Nat :=
  digits.foldl (fun n c =>
    let d := if c.isDigit then c.toNat - 48
      else if c.toNat < 97 then c.toNat - 55 else c.toNat - 87
    n * base + d) 0

/-- A count in a repetition: the number, or its fault. -/
def decimal : Scan (Except Fault Nat) := do
  let _ ← takeWhile Text.isWhiteSpace false
  let first ← here
  let digits ← takeWhile Char.isDigit true
  let span ← since first
  let _ ← takeWhile Text.isWhiteSpace true
  if digits = [] then return .error ⟨.repetitionCountEmpty, span, none⟩
  else if numberLimit < valueOf 10 digits then return .error ⟨.decimalInvalid, span, none⟩
  else return .ok (valueOf 10 digits)

def isHexDigit (c : Char) : Bool :=
  c.isDigit || ('a' ≤ c && c ≤ 'f') || ('A' ≤ c && c ≤ 'F')

def isScalar (code : Nat) : Bool :=
  code < 0xD800 || (0xE000 ≤ code && code ≤ 0x10FFFF)

/-! ## Escapes -/

/-- What an escape stands for. -/
inductive Escape where
  | literal (l : Literal)
  | assertion (span : Span) (kind : Assertion)
  | letter (span : Span) (negated : Bool) (name : LetterClass)
  | property (span : Span) (negated : Bool) (name : String)

/-- Exactly `count` hexadecimal digits. -/
def hexDigits : Nat → Scan (List Char)
  | 0 => return []
  | count + 1 => do
    match ← next? with
    | none => refuse .escapeUnexpectedEnd (.point (← here))
    | some c =>
      if !isHexDigit c then refuse .escapeHexInvalidDigit (← nextSpan)
      else
        step
        skipGap
        return c :: (← hexDigits count)

/-- The character of a code written in hexadecimal digits. -/
def charOfCode (digits : List Char) (span : Span) : Scan Char :=
  let code := valueOf 16 digits
  if isScalar code then return Char.ofNat code else refuse .escapeHexInvalid span

/-- A character by its code: so many digits, or any number of them in braces. -/
def hexEscape (start : Position) (letter : Char) : Scan Escape := do
  match ← advance? with
  | none => refuse .escapeUnexpectedEnd (.point (← here))
  | some '\x7b' =>
    let brace ← here
    let inside := (← nextSpan).behind
    let _ ← advance?
    let digits ← takeWhile isHexDigit true
    match ← next? with
    | none => refuse .escapeUnexpectedEnd (← since brace)
    | some '\x7d' =>
      let span ← since inside
      let _ ← advance?
      if digits = [] then refuse .escapeHexEmpty (← since brace)
      else
        let char ← charOfCode digits span
        return .literal { span := ← since start, char, isByteCode := false }
    | some _ => refuse .escapeHexInvalidDigit (← nextSpan)
  | some _ =>
    let first ← here
    let digits ← hexDigits (if letter = 'x' then 2 else if letter = 'u' then 4 else 8)
    let char ← charOfCode digits (← since first)
    return .literal { span := ← since start, char, isByteCode := letter = 'x' }

/-- A property by its name in braces, or by a single letter. -/
def propertyEscape (start : Position) (negated : Bool) : Scan Escape := do
  match ← advance? with
  | none => refuse .escapeUnexpectedEnd (.point (← here))
  | some '\x7b' =>
    let _ ← advance?
    let name ← takeWhile (· ≠ '\x7d') true
    match ← next? with
    | none => refuse .escapeUnexpectedEnd (.point (← here))
    | some _ =>
      step
      return .property (← since start) negated (String.ofList name)
  | some '\\' => refuse .propertyNameInvalid (← nextSpan)
  | some c =>
    let _ ← advance?
    return .property (← since start) negated (String.singleton c)

def boundaryNames : List (String × Assertion) :=
  [("start", .wordStart), ("end", .wordEnd), ("start-half", .wordStartHalf),
    ("end-half", .wordEndHalf)]

/-- What stands in braces behind `\b`, unless it is a repetition. -/
def boundaryKind? (start : Position) : Scan (Option Assertion) := do
  let before ← get
  let brace ← here
  match ← advance? with
  | none => refuse .boundaryUnexpectedEnd (← since start)
  | some c =>
    let isNameChar := fun (c : Char) => c.isAlpha || c = '-'
    if !isNameChar c then
      set before
      return none
    else
      let inside ← here
      let name ← takeWhile isNameChar true
      match ← next? with
      | some '\x7d' =>
        let span ← since inside
        step
        match boundaryNames.lookup (String.ofList name) with
        | some kind => return some kind
        | none => refuse .boundaryUnrecognized span
      | _ => refuse .boundaryUnclosed (← since brace)

/-- These have a meaning of their own in a pattern. -/
def isMeta (c : Char) : Bool :=
  "\\.+*?()|[]\x7b\x7d^$#&-~".toList.contains c

/-- An escaped character of this kind stands for itself. -/
def isSelfEscape (c : Char) : Bool :=
  isMeta c || (c.toNat < 0x80 && !c.isAlphanum && c ≠ '<' && c ≠ '>' && c ≠ '%')

def letterClass? : Char → Option (Bool × LetterClass)
  | 'd' => some (false, .digit)
  | 'D' => some (true, .digit)
  | 's' => some (false, .space)
  | 'S' => some (true, .space)
  | 'w' => some (false, .word)
  | 'W' => some (true, .word)
  | _ => none

def controlChar? : Char → Option Char
  | 'a' => some '\x07'
  | 'f' => some '\x0c'
  | 't' => some '\t'
  | 'n' => some '\n'
  | 'r' => some '\r'
  | 'v' => some '\x0b'
  | _ => none

def assertion? : Char → Option Assertion
  | 'A' => some .textStart
  | 'z' => some .textEnd
  | 'B' => some .noBoundary
  | '<' => some .wordStart
  | '>' => some .wordEnd
  | _ => none

/-- An escape of one letter, or of a character that stands for itself. -/
def simpleEscape (start : Position) (c : Char) : Scan Escape := do
  step
  let span ← since start
  if isSelfEscape c then return .literal { span, char := c, isByteCode := false }
  else match controlChar? c, assertion? c with
    | some char, _ => return .literal { span, char, isByteCode := false }
    | none, some kind => return .assertion span kind
    | none, none =>
      if c ≠ 'b' then refuse .escapeUnrecognized span
      else if (← next?) = some '\x7b' then
        match ← boundaryKind? start with
        | some kind => return .assertion (← since start) kind
        | none => return .assertion span .boundary
      else return .assertion span .boundary

/-- Reads an escape from its backslash on. -/
def escape : Scan Escape := do
  let start ← here
  step
  match ← next? with
  | none => refuse .escapeUnexpectedEnd (← since start)
  | some c =>
    if c.isDigit then refuse .backreference ⟨start, (← nextSpan).behind⟩
    else if c = 'x' || c = 'u' || c = 'U' then hexEscape start c
    else if c = 'p' || c = 'P' then propertyEscape start (c = 'P')
    else match letterClass? c with
      | some (negated, name) =>
        step
        return .letter (← since start) negated name
      | none => simpleEscape start c

end Scan

end PipeShell.Regex
