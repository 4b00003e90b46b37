import PipeShell.Regex.Syntax

/-!
# Sets of characters

A set is a list of closed ranges of codes in the order of their beginnings.
`contains` is its membership; the operations are those of sets, the complement
up to a largest code.
-/

set_option autoImplicit false

namespace PipeShell.Regex

abbrev Ranges := List (Nat × Nat)

namespace Ranges

/-- The largest code of a character. -/
def lastChar : Nat := 0x10FFFF

/-- The largest byte. -/
def lastByte : Nat := 0xFF

/-- The largest code whose character is its own byte. -/
def lastAscii : Nat := 0x7F

def contains (s : Ranges) (code : Nat) : Bool :=
  s.any fun range => range.1 ≤ code && code ≤ range.2

def isAscii (s : Ranges) : Bool := s.all fun range => range.2 ≤ lastAscii

def union (s t : Ranges) : Ranges :=
  (s ++ t).mergeSort fun a b => a.1 ≤ b.1

/-- What lies between the ranges, from a code up to the largest. -/
def gaps (last first : Nat) : Ranges → Ranges
  | [] => if first ≤ last then [(first, last)] else []
  | (low, high) :: rest =>
    (if first < low then [(first, low - 1)] else []) ++ gaps last (max first (high + 1)) rest

def complement (last : Nat) (s : Ranges) : Ranges := gaps last 0 s

def intersection (last : Nat) (s t : Ranges) : Ranges :=
  complement last (union (complement last s) (complement last t))

def difference (last : Nat) (s t : Ranges) : Ranges :=
  intersection last s (complement last t)

def symmetricDifference (last : Nat) (s t : Ranges) : Ranges :=
  difference last (union s t) (intersection last s t)

def combine (last : Nat) : SetOperator → Ranges → Ranges → Ranges
  | .intersection => intersection last
  | .difference => difference last
  | .symmetricDifference => symmetricDifference last

/-- The part of the ranges between two codes, moved up by an offset and down by another. -/
def shifted (s : Ranges) (low high up down : Nat) : Ranges :=
  s.filterMap fun range =>
    let first := max range.1 low
    let last := min range.2 high
    if first ≤ last then some (first + up - down, last + up - down) else none

/-- With every ASCII letter the same letter in the other case. -/
def foldAscii (s : Ranges) : Ranges :=
  union s (union (shifted s 65 90 32 0) (shifted s 97 122 0 32))

theorem contains_union (s t : Ranges) (code : Nat) :
    (union s t).contains code = (s.contains code || t.contains code) := by
  unfold union contains
  rw [← List.any_append]
  exact List.Perm.any_eq (List.mergeSort_perm _ _)

end Ranges

/-- The characters of a named class. -/
def NamedClass.ranges : NamedClass → Ranges
  | alnum => [(48, 57), (65, 90), (97, 122)]
  | alpha => [(65, 90), (97, 122)]
  | ascii => [(0, 127)]
  | blank => [(9, 9), (32, 32)]
  | cntrl => [(0, 31), (127, 127)]
  | digit => [(48, 57)]
  | graph => [(33, 126)]
  | lower => [(97, 122)]
  | print => [(32, 126)]
  | punct => [(33, 47), (58, 64), (91, 96), (123, 126)]
  | space => [(9, 13), (32, 32)]
  | upper => [(65, 90)]
  | word => [(48, 57), (65, 90), (95, 95), (97, 122)]
  | xdigit => [(48, 57), (65, 70), (97, 102)]

/-- The ASCII characters of a class that a letter names. -/
def LetterClass.ranges : LetterClass → Ranges
  | digit => NamedClass.digit.ranges
  | space => NamedClass.space.ranges
  | word => NamedClass.word.ranges

end PipeShell.Regex
