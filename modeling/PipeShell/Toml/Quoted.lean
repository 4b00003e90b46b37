import PipeShell.Toml.Reader

/-!
# Strings and keys as they are read

A string is basic, between double quotes with escapes, or literal, between
single quotes without.  Three quotes open a string that may run over several
lines.  Up to two quotes may stand inside such a string, also right before the
three that close it.
-/

set_option autoImplicit false

namespace PipeShell.Toml.Reader

/-! ## Escapes -/

def isHexDigit (c : Char) : Bool :=
  c.isDigit || ('a' ≤ c && c ≤ 'f') || ('A' ≤ c && c ≤ 'F')

def digitValue (c : Char) : Nat :=
  if c.isDigit then c.toNat - 48
  else if 'a' ≤ c then c.toNat - 87
  else c.toNat - 55

/-- The number that digits of a base write. -/
def numeral (base : Nat) (digits : List Char) : Nat :=
  digits.foldl (fun n c => n * base + digitValue c) 0

/-- A character given by its number in `size` hexadecimal digits. -/
def codePoint (size : Nat) : Reader Char := do
  let digits ← exactly size isHexDigit
  let code := numeral 16 digits
  guard code.isValidChar
  return Char.ofNat code

/-- The character that a letter behind a backslash stands for. -/
def shortEscape (c : Char) : Option Char :=
  match c with
  | 'b' => some '\x08'
  | 'f' => some '\x0c'
  | 'n' => some '\n'
  | 'r' => some '\r'
  | 't' => some '\t'
  | '"' => some '"'
  | '\\' => some '\\'
  | _ => none

def escape : Reader Char := do
  char '\\'
  let c ← satisfying fun _ => true
  match c with
  | 'u' => codePoint 4
  | 'U' => codePoint 8
  | c => StateT.lift (shortEscape c)

/-! ## On one line -/

def basicChar : Reader Char :=
  satisfying fun c => c ≠ '"' && c ≠ '\\' && !isControl c

def literalChar : Reader Char :=
  satisfying fun c => c ≠ '\'' && !isControl c

def basic : Reader String := do
  char '"'
  let text ← many (basicChar <|> escape)
  char '"'
  return String.ofList text

def literal : Reader String := do
  char '\''
  let text ← many literalChar
  char '\''
  return String.ofList text

/-! ## Over several lines -/

/-- One or two quotes inside a string. -/
def innerQuotes (quote : Char) : Reader (List Char) := do
  let run ← span (· = quote)
  guard (run.length = 1 || run.length = 2)
  return run

/-- The three quotes that close a string, and up to two before them that belong to it. -/
def closing (quote : Char) : Reader (List Char) := fun text =>
  let run := text.takeWhile (· = quote)
  if run.length < 3 then none
  else
    let inner := run.take (min 2 (run.length - 3))
    some (inner, text.drop (inner.length + 3))

/-- A backslash at the end of a line takes away the line end and all spacing behind it. -/
def joinedLines : Reader (List Char) := do
  char '\\'
  spaces
  newline
  let _ ← many ((do
    let _ ← satisfying isSpace) <|> newline)
  return []

def lineBreak : Reader (List Char) := do
  newline
  return ['\n']

/-- A string over several lines.  A line end right behind the opening quotes does not count. -/
def multiline (quote : Char) (piece : Reader (List Char)) : Reader String := do
  chars [quote, quote, quote]
  let _ ← optional newline
  let pieces ← many (piece <|> lineBreak <|> innerQuotes quote)
  let last ← closing quote
  return String.ofList (pieces.flatten ++ last)

def multilineBasic : Reader String :=
  multiline '"' (List.singleton <$> basicChar <|> joinedLines <|> List.singleton <$> escape)

def multilineLiteral : Reader String :=
  multiline '\'' (List.singleton <$> literalChar)

def string : Reader String :=
  multilineBasic <|> basic <|> multilineLiteral <|> literal

/-! ## Keys -/

/-- Bare keys consist of these. -/
def isBare (c : Char) : Bool :=
  c.isAlphanum || c = '-' || c = '_'

def bareKey : Reader String := do
  let text ← span isBare
  guard (text ≠ [])
  return String.ofList text

def simpleKey : Reader String := do
  spaces
  let key ← basic <|> literal <|> bareKey
  spaces
  return key

/-- Keys and values nest less deep than this. -/
def depthLimit : Nat := 80

/-- Keys joined by dots. -/
def key : Reader (List String) := do
  let path ← separated simpleKey (char '.')
  guard (path ≠ [] && path.length < depthLimit)
  return path

end PipeShell.Toml.Reader
