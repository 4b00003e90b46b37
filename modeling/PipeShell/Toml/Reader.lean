/-!
# Readers

A `Reader` takes characters from the head of a text, or fails and takes none.
Two readers joined by `<|>` are tried in order.  `many` repeats a reader that
takes something each time, so the length of the text bounds the repetition.

Below the general readers stand those of the settings format that belong to no
value: spaces, line ends, comments and the gaps between the items of an array.
-/

set_option autoImplicit false

namespace PipeShell.Toml

abbrev Reader := StateT (List Char) Option

namespace Reader

variable {α : Type}

/-! ## In general -/

/-- The next character, if it is acceptable. -/
def satisfying (accept : Char → Bool) : Reader Char := fun text =>
  match text with
  | c :: rest => if accept c then some (c, rest) else none
  | [] => none

def char (c : Char) : Reader Unit := do
  let _ ← satisfying (· = c)

/-- The given characters in order. -/
def chars : List Char → Reader Unit
  | [] => pure ()
  | c :: rest => do
    char c
    chars rest

/-- All acceptable characters that come next, possibly none. -/
def span (accept : Char → Bool) : Reader (List Char) := fun text =>
  some (text.takeWhile accept, text.dropWhile accept)

def ending : Reader Unit := fun text =>
  if text = [] then some ((), []) else none

/-- What `item` reads, or nothing where it fails. -/
def optional (item : Reader α) : Reader (Option α) :=
  some <$> item <|> pure none

def upTo (item : Reader α) : Nat → Reader (List α)
  | 0 => pure []
  | fuel + 1 => (do
      let first ← item
      let rest ← upTo item fuel
      return first :: rest) <|> pure []

/-- Repeats a reader until it fails. -/
def many (item : Reader α) : Reader (List α) := do
  let text ← get
  upTo item text.length

/-- Items with a separator between neighbours, possibly none. -/
def separated (item : Reader α) (separator : Reader Unit) : Reader (List α) := (do
  let first ← item
  let rest ← many (do
    separator
    item)
  return first :: rest) <|> pure []

/-- Exactly `n` acceptable characters. -/
def exactly (n : Nat) (accept : Char → Bool) : Reader (List Char) := fun text =>
  let taken := text.take n
  if taken.length = n && taken.all accept then some (taken, text.drop n) else none

/-! ## Between values -/

def isSpace (c : Char) : Bool := c = ' ' || c = '\t'

def spaces : Reader Unit := do
  let _ ← span isSpace

/-- A line feed, alone or behind a carriage return. -/
def newline : Reader Unit :=
  chars ['\n'] <|> chars ['\r', '\n']

/-- Control characters other than the tab may stand neither in comments nor in strings. -/
def isControl (c : Char) : Bool :=
  (c.toNat < 0x20 && c ≠ '\t') || c.toNat = 0x7F

def comment : Reader Unit := do
  char '#'
  let _ ← span fun c => !isControl c

/-- The rest of a line behind a statement. -/
def lineEnd : Reader Unit := do
  spaces
  let _ ← optional comment
  newline <|> ending

/-- Spaces, line ends and comments, as they may stand around the items of an array. -/
def gap : Reader Unit := do
  let _ ← many ((do
    let _ ← satisfying isSpace) <|> newline <|> (do
    comment
    newline))

end Reader

end PipeShell.Toml
