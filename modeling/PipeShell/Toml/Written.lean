import PipeShell.Toml.Quoted

/-!
# Strings and keys as they are written

A string is written in the plainest form that can hold it.  Basic form is taken
when nothing in it would have to be escaped; then literal form, which holds
everything but single quotes and control characters; then the same two over
several lines; and where none of these will do, basic form with escapes.
-/

set_option autoImplicit false

namespace PipeShell.Toml

/-- The longest run of a character in a text, behind a run of `run` of them. -/
def longestRun (c : Char) (run : Nat) : List Char → Nat
  | [] => run
  | first :: rest =>
    if first = c then longestRun c (run + 1) rest else max run (longestRun c 0 rest)

/-- What a text has in it that some form of string cannot hold. -/
structure Contents where
  singleQuotes : Nat
  doubleQuotes : Nat
  hasBackslash : Bool
  hasNewline : Bool
  /-- Control characters, the tab and the line feed apart. -/
  hasControl : Bool

def Contents.of (text : List Char) : Contents where
  singleQuotes := longestRun '\'' 0 text
  doubleQuotes := longestRun '"' 0 text
  hasBackslash := text.contains '\\'
  hasNewline := text.contains '\n'
  hasControl := text.any fun c => Reader.isControl c && c ≠ '\n'

/-- The forms of a string. -/
inductive Form where
  | basic
  | literal
  | multilineBasic
  | multilineLiteral
  deriving DecidableEq

/-- The plainest form for a text. -/
def Contents.form (c : Contents) : Form :=
  let tame := !c.hasControl && !c.hasBackslash
  if tame && c.doubleQuotes = 0 && !c.hasNewline then .basic
  else if !c.hasControl && c.singleQuotes = 0 && !c.hasNewline then .literal
  else if tame && c.doubleQuotes ≤ 2 then .multilineBasic
  else if !c.hasControl && c.singleQuotes ≤ 2 then .multilineLiteral
  else if c.hasNewline then .multilineBasic
  else .basic

/-- The form of a key that is not bare.  Keys stay on one line. -/
def Contents.keyForm (c : Contents) : Form :=
  if c.hasControl || c.hasNewline then .basic
  else if !c.hasBackslash && c.doubleQuotes = 0 then .basic
  else if c.singleQuotes = 0 then .literal
  else .basic

/-- The four hexadecimal digits of a number. -/
def fourDigits (n : Nat) : List Char :=
  let digits := (Nat.toDigits 16 n).map Char.toUpper
  List.replicate (4 - digits.length) '0' ++ digits

/-- A text in basic form, after `run` double quotes that stand as they are.  Over several lines a
line feed stands as it is, and of double quotes in a row every third is escaped. -/
def escaped (multiline : Bool) (run : Nat) : List Char → List Char
  | [] => []
  | c :: rest =>
    let short (letter : Char) := '\\' :: letter :: escaped multiline 0 rest
    match c with
    | '"' =>
      if multiline && run < 2 then '"' :: escaped multiline (run + 1) rest else short '"'
    | '\\' => short '\\'
    | '\x08' => short 'b'
    | '\t' => short 't'
    | '\n' => if multiline then '\n' :: escaped multiline 0 rest else short 'n'
    | '\x0c' => short 'f'
    | '\r' => short 'r'
    | c =>
      if Reader.isControl c then
        ['\\', 'u'] ++ fourDigits c.toNat ++ escaped multiline 0 rest
      else c :: escaped multiline 0 rest

/-- A text in a given form.  A line end right behind the opening quotes does not count, so a text of
several lines begins on a line of its own. -/
def Form.write (form : Form) (text : List Char) : List Char :=
  let opening := if text.contains '\n' then ['\n'] else []
  match form with
  | .basic => '"' :: escaped false 0 text ++ ['"']
  | .literal => '\'' :: text ++ ['\'']
  | .multilineBasic => ['"', '"', '"'] ++ opening ++ escaped true 0 text ++ ['"', '"', '"']
  | .multilineLiteral => ['\'', '\'', '\''] ++ opening ++ text ++ ['\'', '\'', '\'']

def writeString (text : String) : String :=
  let text := text.toList
  String.ofList ((Contents.of text).form.write text)

def writeKey (key : String) : String :=
  let text := key.toList
  if text ≠ [] && text.all Reader.isBare then key
  else String.ofList ((Contents.of text).keyForm.write text)

end PipeShell.Toml
