import PipeShell.Program.Report

/-!
# Texts shown with what cannot be seen

A text is shown line by line, with numbers before the lines, with signs for
what cannot be seen, and with fewer empty lines, as is wished.  It may come in
pieces: `ListingState` keeps how far it has been shown.
-/

set_option autoImplicit false

namespace PipeShell

/-- How a text is shown. -/
structure Listing where
  /-- Lines have their numbers before them. -/
  numbered : Bool
  /-- Empty lines have none. -/
  skipsEmpty : Bool
  /-- Of neighbouring empty lines one is shown. -/
  squeezed : Bool
  /-- A sign marks the end of a line. -/
  showsEnds : Bool
  showsTabs : Bool
  /-- Bytes without a glyph are written as what they are. -/
  showsOthers : Bool
  deriving DecidableEq

/-- How far a text has been shown. -/
structure ListingState where
  /-- The number of the next line. -/
  next : Nat
  insideLine : Bool
  /-- How many empty lines come just before. -/
  emptyLines : Nat
  deriving DecidableEq

namespace Listing

/-- A byte without a glyph as what it is: its high bit, and a letter for a control character. -/
def shown (b : UInt8) : Bytes :=
  let high : Bytes := if b < 128 then [] else Text.encode "M-"
  let low := b % 128
  high ++ (if low < 32 then [94, low + 64] else if low = 127 then Text.encode "^?" else [low])

/-- A byte inside a line. -/
def showByte (l : Listing) (b : UInt8) : Bytes :=
  if b = 9 then if l.showsTabs then shown b else [b]
  else if l.showsOthers then shown b
  else [b]

/-- The state behind a byte, and what is shown of it. -/
def step (l : Listing) (s : ListingState) (b : UInt8) : ListingState × Bytes :=
  let number := fun (wanted : Bool) =>
    if wanted then Text.encode (Report.padded 6 s.next ++ "\t") else []
  let counted := fun (wanted : Bool) => if wanted then s.next + 1 else s.next
  if b ≠ Text.newline then
    let wanted := l.numbered && !s.insideLine
    ({ next := counted wanted, insideLine := true, emptyLines := 0 },
      number wanted ++ l.showByte b)
  else
    let ending := if l.showsEnds then [36, b] else [b]
    if s.insideLine then ({ s with insideLine := false }, ending)
    else if l.squeezed && 0 < s.emptyLines then (s, [])
    else
      let wanted := l.numbered && !l.skipsEmpty
      ({ s with next := counted wanted, emptyLines := 1 }, number wanted ++ ending)

def apply (l : Listing) (s : ListingState) (data : ByteArray) :
    ListingState × ByteArray :=
  data.foldl (fun (s, out) b =>
    let (s, piece) := l.step s b
    (s, piece.foldl ByteArray.push out)) (s, .empty)

end Listing

end PipeShell
