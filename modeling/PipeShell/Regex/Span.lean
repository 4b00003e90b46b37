/-!
# Places in a pattern

A position counts characters, lines and columns; a span lies between two
positions.  Lines and columns count from one.
-/

set_option autoImplicit false

namespace PipeShell.Regex

structure Position where
  offset : Nat
  line : Nat
  column : Nat
  deriving DecidableEq, Repr

namespace Position

def start : Position := { offset := 0, line := 1, column := 1 }

/-- The position behind a character that stands here. -/
def after (p : Position) (c : Char) : Position :=
  if c = '\n' then { offset := p.offset + 1, line := p.line + 1, column := 1 }
  else { p with offset := p.offset + 1, column := p.column + 1 }

def afterAll (p : Position) (text : List Char) : Position :=
  text.foldl after p

@[simp] theorem offset_after (p : Position) (c : Char) : (p.after c).offset = p.offset + 1 := by
  unfold after
  split <;> rfl

@[simp] theorem offset_afterAll (p : Position) (text : List Char) :
    (p.afterAll text).offset = p.offset + text.length := by
  unfold afterAll
  induction text generalizing p with
  | nil => simp
  | cons c rest ih =>
    rw [List.foldl_cons, ih, offset_after, List.length_cons]
    omega

end Position

/-- The part of a pattern from one position up to another. -/
structure Span where
  first : Position
  behind : Position
  deriving DecidableEq, Repr

namespace Span

/-- The empty span at a position. -/
def point (p : Position) : Span := ⟨p, p⟩

def isOneLine (s : Span) : Bool := s.first.line = s.behind.line

/-- The order of spans by their beginnings, then by their ends. -/
def before (a b : Span) : Bool :=
  a.first.offset < b.first.offset ||
    (a.first.offset = b.first.offset && a.behind.offset ≤ b.behind.offset)

end Span

end PipeShell.Regex
