import PipeShell.Regex.Ranges

/-!
# Matching

A matcher is what remains of a pattern when only the question is left whether a
text has a match.  Matching works on all places of a text at once: from the
places that have been reached, `Matcher.advance` gives those that can be
reached by matching on.  Places are marked in a list with one mark for every
place before, between and behind the characters.
-/

set_option autoImplicit false

namespace PipeShell.Regex

/-- A condition on a place in a text. -/
inductive Look where
  | textStart
  | textEnd
  | lineStart
  | lineEnd
  /-- As the beginning and the end of a line, where a carriage return ends a line too. -/
  | lineStartCrlf
  | lineEndCrlf
  /-- A condition on words, which are made of the given characters. -/
  | word (kind : Assertion) (members : Option Ranges)
  deriving DecidableEq, Repr

inductive Matcher where
  | empty
  /-- One character of the set. -/
  | char (accepted : Ranges)
  | look (kind : Look)
  | seq (first second : Matcher)
  | either (first second : Matcher)
  | repeated (least : Nat) (most : Option Nat) (inner : Matcher)
  /-- A group whose place in the text is noted. -/
  | capture (inner : Matcher)
  deriving Repr

/-! ## Places -/

/-- The characters on both sides of a place. -/
structure Place where
  before : Option Char
  behind : Option Char
  deriving DecidableEq, Repr

/-- All places of a text, after the given character. -/
def placesAfter (before : Option Char) : List Char → List Place
  | [] => [{ before, behind := none }]
  | c :: rest => { before, behind := some c } :: placesAfter (some c) rest

def places (text : List Char) : List Place := placesAfter none text

theorem length_placesAfter (before : Option Char) (text : List Char) :
    (placesAfter before text).length = text.length + 1 := by
  induction text generalizing before with
  | nil => rfl
  | cons c rest ih => simp [placesAfter, ih]

/-- A condition on words at a place, given whether a word character stands on each side. -/
def wordHolds (kind : Assertion) (before behind : Bool) : Bool :=
  match kind with
  | .boundary => before != behind
  | .noBoundary => before == behind
  | .wordStart => !before && behind
  | .wordEnd => before && !behind
  | .wordStartHalf => !before
  | .wordEndHalf => !behind
  | _ => false

namespace Look

/-- The condition holds at a place. -/
def holds (look : Look) (p : Place) : Bool :=
  match look with
  | textStart => p.before.isNone
  | textEnd => p.behind.isNone
  | lineStart => p.before.isNone || p.before = some '\n'
  | lineEnd => p.behind.isNone || p.behind = some '\n'
  | lineStartCrlf =>
    p.before.isNone || p.before = some '\n' || (p.before = some '\r' && p.behind ≠ some '\n')
  | lineEndCrlf =>
    p.behind.isNone || p.behind = some '\r' || (p.behind = some '\n' && p.before ≠ some '\r')
  | word kind members =>
    let isMember := fun (c : Option Char) =>
      c.any fun c => (members.getD []).contains c.toNat
    wordHolds kind (isMember p.before) (isMember p.behind)

end Look

/-! ## Marks -/

/-- For every place of a text whether it has been reached. -/
abbrev Marks := List Bool

namespace Marks

def join (a b : Marks) : Marks := List.zipWith (· || ·) a b

/-- Does something so many times. -/
def times (f : Marks → Marks) : Nat → Marks → Marks
  | 0, marks => marks
  | n + 1, marks => times f n (f marks)

/-- The places reached by doing something at most so many times. -/
def upTo (f : Marks → Marks) (n : Nat) (marks : Marks) : Marks :=
  times (fun reached => reached.join (f reached)) n marks

end Marks

namespace Matcher

/-- The places that can be reached from the marked ones. -/
def advance (text : List Char) : Matcher → Marks → Marks
  | .empty, marks => marks
  | .char accepted, marks =>
    false :: List.zipWith (fun mark c => mark && accepted.contains c.toNat) marks text
  | .look kind, marks =>
    List.zipWith (fun mark place => mark && kind.holds place) marks (places text)
  | .seq first second, marks => second.advance text (first.advance text marks)
  | .either first second, marks => (first.advance text marks).join (second.advance text marks)
  | .repeated least most inner, marks =>
    -- a path through the text moves on at most as often as there are characters, so
    -- beyond that number another time makes no difference
    let enough := text.length + 1
    let start := Marks.times (inner.advance text) (min least enough) marks
    let more := match most with
      | some most => min (most - least) enough
      | none => enough
    Marks.upTo (inner.advance text) more start
  | .capture inner, marks => inner.advance text marks

/-- The text has a match somewhere. -/
def occursIn (m : Matcher) (text : List Char) : Bool :=
  (m.advance text ((places text).map fun _ => true)).any id

/-! ## Size -/

/-- The matcher can take a character. -/
def consumes : Matcher → Bool
  | .empty => false
  | .char _ => true
  | .look _ => false
  | .seq first second => first.consumes || second.consumes
  | .either first second => first.consumes || second.consumes
  | .repeated _ most inner => most ≠ some 0 && inner.consumes
  | .capture inner => inner.consumes

/-- How many copies of its inner part a repetition stands for. -/
def copies (least : Nat) (most : Option Nat) (consumes : Bool) : Nat :=
  let all := most.getD (max least 1)
  if consumes then all else min all 1

/-- The bytes of a state, of a step between states, and of the states for a set that is not all
ASCII. -/
def stateSize : Nat := 32
def stepSize : Nat := 8
def wideSize : Nat := 424

/-- The bytes that the states of a matcher take. -/
def size : Matcher → Nat
  | .empty => 0
  | .char accepted =>
    match accepted with
    | [(low, high)] =>
      if high ≤ Ranges.lastAscii then stateSize
      else if low = high then stateSize * (Char.ofNat low).utf8Size
      else wideSize
    | ranges =>
      if Ranges.isAscii ranges then stateSize * 2 + stepSize * ranges.length else wideSize
  | .look _ => stateSize
  | .seq first second => first.size + second.size
  | .either first second => first.size + second.size + stateSize
  | .repeated least most inner =>
    let count := copies least most inner.consumes
    let choices := match most with
      | none => 1
      | some most => min (most - least) count
    count * inner.size + choices * (stateSize + stepSize)
  | .capture inner => inner.size + stateSize * 2

/-- Some condition asks for words, but what they are made of is not known. -/
def hasUnknownWords : Matcher → Bool
  | .empty => false
  | .char _ => false
  | .look (.word _ none) => true
  | .look _ => false
  | .seq first second => first.hasUnknownWords || second.hasUnknownWords
  | .either first second => first.hasUnknownWords || second.hasUnknownWords
  | .repeated _ most inner => most ≠ some 0 && inner.hasUnknownWords
  | .capture inner => inner.hasUnknownWords

end Matcher

end PipeShell.Regex
