import PipeShell.Text.Lines

/-!
# Text without commands to a terminal

A terminal takes some bytes as commands: control characters, and sequences that
an escape byte begins.  Output that no terminal shows leaves them out
(`withoutEscapes`); white space and characters of several bytes stay.
-/

set_option autoImplicit false

namespace PipeShell.Text

/-- Where in a text a byte stands. -/
inductive EscapeState where
  | ground
  /-- Inside a character, of which so many bytes are to come. -/
  | character (left : Nat)
  /-- Behind the escape byte, and perhaps bytes that choose a set of commands. -/
  | escape (isFirst : Bool)
  /-- Inside a command with parameters, which a letter ends. -/
  | command
  /-- At the head of a command to a device, which a letter ends. -/
  | deviceHead
  /-- Inside a string for a device. -/
  | deviceString
  /-- Inside a string for the system around the terminal. -/
  | systemString
  deriving DecidableEq, Repr

namespace EscapeState

/-- Only here a blank byte is a blank. -/
def takesBlanks : EscapeState → Bool
  | ground | escape _ | command => true
  | character _ | deviceHead | deviceString | systemString => false

/-- White space among the control characters, and the space itself. -/
def isBlank (b : UInt8) : Bool := b = 32 || b = 9 || b = 10 || b = 12 || b = 13

/-- The state behind a byte that follows the escape byte. -/
def afterEscape (isFirst : Bool) (b : UInt8) : EscapeState :=
  if b < 0x20 || 0x7F ≤ b then escape isFirst
  else if b < 0x30 then escape false
  else if !isFirst then ground
  else if b = 0x5B then command
  else if b = 0x5D then systemString
  else if b = 0x50 then deviceHead
  else if b = 0x58 || b = 0x5E || b = 0x5F then deviceString
  else ground

/-- The state behind a byte that is no part of the text. -/
def skip (state : EscapeState) (b : UInt8) : EscapeState :=
  if b = 0x18 || b = 0x1A then ground
  else if b = 0x1B then escape true
  else
    let isFinal := 0x40 ≤ b && b ≤ 0x7E
    match state with
    | ground | character _ => ground
    | escape isFirst => afterEscape isFirst b
    | command => if isFinal then ground else command
    | deviceHead => if isFinal || b = 0x3A then deviceString else deviceHead
    | deviceString => if b = 0x9C then ground else deviceString
    | systemString => if b = 7 then ground else systemString

/-- The state behind a byte, and whether the byte is part of the text. -/
def step (state : EscapeState) (b : UInt8) : EscapeState × Bool :=
  match state with
  | character left => (if left ≤ 1 then ground else character (left - 1), true)
  | state =>
    if b < 0x20 && isBlank b && state.takesBlanks then (ground, true)
    else if state = ground && 0x20 ≤ b && b < 0x7F then (ground, true)
    else if state = ground && 0xC2 ≤ b then
      match sequenceLength? b with
      | some length => (character (length - 1), true)
      | none => (ground, false)
    else (state.skip b, false)

end EscapeState

/-- A text without commands to a terminal. -/
def withoutEscapes (text : String) : String :=
  let (_, kept) := (encode text).foldl (fun (state, kept) b =>
    let (state, isText) := EscapeState.step state b
    (state, if isText then b :: kept else kept)) (EscapeState.ground, [])
  decodeLossy kept.reverse

end PipeShell.Text
