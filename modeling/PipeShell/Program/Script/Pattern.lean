import PipeShell.Program.Script.Word

/-!
# Patterns of file names

In a pattern `*` stands for any bytes, `?` for any one byte, and brackets for
one of the bytes they list.  Quoted bytes stand for themselves.
-/

set_option autoImplicit false

namespace PipeShell

/-- Bytes of a pattern, each with whether it was quoted. -/
abbrev Pattern := List (UInt8 × Bool)

namespace Pattern

def ofBytes (quoted : Bool) (bytes : Bytes) : Pattern := bytes.map fun b => (b, quoted)

def toBytes (pattern : Pattern) : Bytes := pattern.map Prod.fst

def isMark (c : Char) (b : UInt8 × Bool) : Bool := !b.2 && b.1.toNat = c.toNat

/-- Some byte of the pattern stands for others. -/
def isActive (pattern : Pattern) : Bool :=
  pattern.any fun b => isMark '*' b || isMark '?' b || isMark '[' b

/-- The members of a bracket up to its end, and the pattern behind it.  A closing bracket that comes
first is a member. -/
def bracket? (isFirst : Bool) : Pattern → Option (Pattern × Pattern)
  | [] => none
  | b :: rest =>
    if isMark ']' b && !isFirst then some ([], rest)
    else (bracket? false rest).map fun (members, behind) => (b :: members, behind)

/-- A byte is one of the members, or lies in a range of two. -/
def isMember (b : UInt8) : Pattern → Bool
  | low :: dash :: high :: rest =>
    if isMark '-' dash then (low.1 ≤ b && b ≤ high.1) || isMember b rest
    else low.1 = b || isMember b (dash :: high :: rest)
  | first :: rest => first.1 = b || isMember b rest
  | [] => false

/-- What one step of a pattern asks of a byte, and the pattern behind it. -/
def step (first : UInt8 × Bool) (rest : Pattern) : (UInt8 → Bool) × Pattern :=
  if isMark '?' first then (fun _ => true, rest)
  else if isMark '[' first then
    let inverted := (rest.head?.map fun b => isMark '!' b || isMark '^' b).getD false
    match bracket? true (if inverted then rest.drop 1 else rest) with
    | some (members, behind) => (fun b => isMember b members != inverted, behind)
    | none => (fun b => b = first.1, rest)
  else (fun b => b = first.1, rest)

/-- The text matches the pattern.  `fuel` is more than the length of the pattern and of the
text together. -/
def matchesWithin (fuel : Nat) (pattern : Pattern) (text : Bytes) : Bool :=
  match fuel with
  | 0 => false
  | fuel + 1 =>
    match pattern, text with
    | [], text => text = []
    | first :: rest, text =>
      if isMark '*' first then
        matchesWithin fuel rest text ||
          match text with
          | [] => false
          | _ :: more => matchesWithin fuel (first :: rest) more
      else
        match text with
        | [] => false
        | b :: more =>
          let (asks, behind) := step first rest
          asks b && matchesWithin fuel behind more

def matchesText (pattern : Pattern) (text : Bytes) : Bool :=
  matchesWithin (pattern.length + text.length + 1) pattern text

/-- The length of what a pattern matches at the beginning of a text, the shortest or the longest. -/
def headLength? (longest : Bool) (pattern : Pattern) (text : Bytes) : Option Nat :=
  let found := (List.range (text.length + 1)).filter fun n => matchesText pattern (text.take n)
  if longest then found.getLast? else found.head?

/-- The length of what is left of a text without what a pattern matches at its end. -/
def tailStart? (longest : Bool) (pattern : Pattern) (text : Bytes) : Option Nat :=
  let found := (List.range (text.length + 1)).filter fun n => matchesText pattern (text.drop n)
  if longest then found.head? else found.getLast?

/-- A pattern that begins with a dot, or a name that does not. -/
def admitsHidden (pattern : Pattern) (name : Bytes) : Bool :=
  name.head? ≠ some 46 || (pattern.head?.map Prod.fst) = some 46

end Pattern

end PipeShell
