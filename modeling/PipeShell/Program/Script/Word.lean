import PipeShell.Text.Utf8

/-!
# Words of a script

A word is made of parts: text as it stands, and what is to be replaced when the
command runs, such as the value of a parameter or the output of other commands.
`Word.read?` takes the word at the head of a text.

A script is bytes.  Each byte is looked at as the character of its number, so
that nothing is lost between reading and writing.
-/

set_option autoImplicit false

namespace PipeShell

/-- What becomes of the value of a parameter. -/
inductive ParameterForm where
  | value
  | length
  /-- The operand stands in where there is no value; where the value is empty, if `filled`. -/
  | orElse (filled : Bool)
  /-- The same, and the parameter gets it as its value. -/
  | orAssign (filled : Bool)
  /-- The operand is the complaint where there is no value. -/
  | orFail (filled : Bool)
  /-- The operand stands in where there is a value. -/
  | ifSet (filled : Bool)
  /-- Without what the pattern matches at its end, or at its beginning. -/
  | withoutEnd (longest : Bool)
  | withoutStart (longest : Bool)
  deriving DecidableEq, Repr

/-- Part of a word.  What is `quoted` is neither split nor matched against files.  Text that is
still to be read comes with the number of its first line. -/
inductive WordPart where
  | literal (text : List Char) (quoted : Bool)
  | parameter (name : String) (form : ParameterForm) (operand : List Char) (line : Nat)
      (quoted : Bool)
  /-- All the arguments of the script, as one text if they are `joined`. -/
  | arguments (joined quoted : Bool)
  /-- The output of the commands in the text. -/
  | substitution (text : List Char) (line : Nat) (quoted : Bool)
  | arithmetic (text : List Char) (line : Nat) (quoted : Bool)
  /-- A parameter in a form that does not exist. -/
  | malformed
  deriving DecidableEq, Repr

abbrev Word := List WordPart

namespace Word

def ofBytes (bytes : Bytes) : List Char :=
  bytes.map fun b => Char.ofNat b.toNat

def toBytes (text : List Char) : Bytes :=
  text.map fun c => c.toNat.toUInt8

/-- What keeps a word from being read. -/
inductive Fault where
  | quoteOpen
  | backquoteOpen
  | braceOpen
  | parenthesisOpen
  | arithmeticOpen
  deriving DecidableEq, Repr

def isNameStart (c : Char) : Bool := c.isAlpha || c = '_'

def isNamePart (c : Char) : Bool := c.isAlphanum || c = '_'

def isName (text : List Char) : Bool :=
  match text with
  | c :: rest => isNameStart c && rest.all isNamePart
  | [] => false

/-- Names a parameter by itself. -/
def isSpecial (c : Char) : Bool := "$?#!-".toList.contains c

/-- Ends an unquoted word. -/
def endsWord (c : Char) : Bool := " \t\n;<>&|()".toList.contains c

/-- The text up to the closing character that belongs to an opening one already read, and the text
behind it.  `depth` more pairs and perhaps a quote are open. -/
def enclosed? (opening closing : Char) (depth : Nat) (quote : Option Char) :
    List Char → Option (List Char × List Char)
  | [] => none
  | '\\' :: c :: rest =>
    if quote = some '\'' then
      (enclosed? opening closing depth (if c = '\'' then none else quote) rest).map
        fun (inside, behind) => ('\\' :: c :: inside, behind)
    else
      (enclosed? opening closing depth quote rest).map
        fun (inside, behind) => ('\\' :: c :: inside, behind)
  | c :: rest =>
    let go := fun (depth : Nat) (quote : Option Char) =>
      (enclosed? opening closing depth quote rest).map
        fun (inside, behind) => (c :: inside, behind)
    match quote with
    | some mark => go depth (if c = mark then none else quote)
    | none =>
      if c = '\'' || c = '"' then go depth (some c)
      else if c = opening then go (depth + 1) none
      else if c = closing then
        if depth = 0 then some ([], rest) else go (depth - 1) none
      else go depth none

/-- The text up to a closing backquote, without the backslashes that it needs, and the text
behind it. -/
def backquoted? : List Char → Option (List Char × List Char)
  | [] => none
  | '\\' :: c :: rest =>
    (backquoted? rest).map fun (inside, behind) =>
      (if c = '\x60' || c = '\\' || c = '$' then (c :: inside, behind)
        else ('\\' :: c :: inside, behind))
  | c :: rest =>
    if c = '\x60' then some ([], rest)
    else (backquoted? rest).map fun (inside, behind) => (c :: inside, behind)

/-- The form that follows the name of a parameter between braces, and its operand. -/
def form? : List Char → Option (ParameterForm × List Char)
  | [] => some (.value, [])
  | ':' :: '-' :: rest => some (.orElse true, rest)
  | ':' :: '=' :: rest => some (.orAssign true, rest)
  | ':' :: '?' :: rest => some (.orFail true, rest)
  | ':' :: '+' :: rest => some (.ifSet true, rest)
  | '-' :: rest => some (.orElse false, rest)
  | '=' :: rest => some (.orAssign false, rest)
  | '?' :: rest => some (.orFail false, rest)
  | '+' :: rest => some (.ifSet false, rest)
  | '%' :: '%' :: rest => some (.withoutEnd true, rest)
  | '%' :: rest => some (.withoutEnd false, rest)
  | '#' :: '#' :: rest => some (.withoutStart true, rest)
  | '#' :: rest => some (.withoutStart false, rest)
  | _ => none

/-- The name of a parameter at the head of a text. -/
def parameterName (text : List Char) : List Char :=
  match text with
  | c :: _ =>
    if isNameStart c then text.takeWhile isNamePart
    else if c.isDigit then text.takeWhile Char.isDigit
    else if isSpecial c || c = '@' || c = '*' then [c]
    else []
  | [] => []

/-- What stands between braces behind a `$`. -/
def braced (quoted : Bool) (line : Nat) (text : List Char) : WordPart :=
  match text with
  | '#' :: c :: rest =>
    if (parameterName (c :: rest)).length = rest.length + 1 then
      .parameter (String.ofList (c :: rest)) .length [] line quoted
    else
      match form? (c :: rest) with
      | some (form, operand) => .parameter "#" form operand line quoted
      | none => .malformed
  | text =>
    let name := parameterName text
    match name, form? (text.drop name.length) with
    | [], _ => .malformed
    | ['@'], some (.value, _) => .arguments false quoted
    | ['*'], some (.value, _) => .arguments true quoted
    | name, some (form, operand) => .parameter (String.ofList name) form operand line quoted
    | _, none => .malformed

/-- The part that a `$` begins, of the text behind it, and the text behind the part. -/
def dollar (quoted : Bool) (line : Nat) (text : List Char) :
    Except Fault (WordPart × List Char) :=
  match text with
  | '(' :: '(' :: rest =>
    match enclosed? '(' ')' 0 none ('(' :: rest) with
    | some (inside, behind) =>
      if inside.getLast? = some ')' then
        .ok (.arithmetic (inside.drop 1).dropLast line quoted, behind)
      else .ok (.substitution inside line quoted, behind)
    | none => .error .arithmeticOpen
  | '(' :: rest =>
    match enclosed? '(' ')' 0 none rest with
    | some (inside, behind) => .ok (.substitution inside line quoted, behind)
    | none => .error .parenthesisOpen
  | '\x7b' :: rest =>
    match enclosed? '\x7b' '\x7d' 0 none rest with
    | some (inside, behind) => .ok (braced quoted line inside, behind)
    | none => .error .braceOpen
  | c :: rest =>
    if c = '@' || c = '*' then .ok (.arguments (c = '*') quoted, rest)
    else if isNameStart c then
      .ok (.parameter (String.ofList (text.takeWhile isNamePart)) .value [] line quoted,
        text.dropWhile isNamePart)
    else if c.isDigit || isSpecial c then
      .ok (.parameter (String.singleton c) .value [] line quoted, rest)
    else .ok (.literal ['$'] quoted, text)
  | [] => .ok (.literal ['$'] quoted, [])

/-- The surroundings in which text is read. -/
inductive Mode where
  | bare
  /-- Inside double quotes. -/
  | quoted
  /-- An operand inside double quotes, where double quotes mean nothing. -/
  | operand
  /-- Lines that a command reads, where double quotes stand for themselves. -/
  | lines
  deriving DecidableEq

/-- What a backslash and the character behind it stand for. -/
def escaped (mode : Mode) (c : Char) : List Char :=
  let isEscapable := match mode with
    | .bare => true
    | .quoted => "\"\\$\x60".toList.contains c
    | .operand => "\"\\$\x60\x7d".toList.contains c
    | .lines => "\\$\x60".toList.contains c
  if isEscapable then [c] else ['\\', c]

def countLines (text : List Char) : Nat := text.count '\n'

/-- The word at the head of a text and the text behind it.  `fuel` is more than the length of the
text, and `line` the number of its first line. -/
def readFrom (fuel : Nat) (mode : Mode) (line : Nat) (text : List Char) :
    Except Fault (Word × List Char) :=
  match fuel with
  | 0 => .ok ([], text)
  | fuel + 1 =>
    let goOn := fun (part : WordPart) (mode : Mode) (rest : List Char) =>
      let passed := countLines (text.take (text.length - rest.length))
      (readFrom fuel mode (line + passed) rest).map fun (parts, behind) => (part :: parts, behind)
    let quoted := mode ≠ .bare
    match text with
    | [] => if mode = .quoted then .error .quoteOpen else .ok ([], [])
    | c :: rest =>
      if mode = .bare && endsWord c then .ok ([], text)
      else if c = '"' then
        match mode with
        | .bare => goOn (.literal [] true) .quoted rest
        | .quoted => goOn (.literal [] true) .bare rest
        | .operand => goOn (.literal [] true) .operand rest
        | .lines => goOn (.literal [c] true) .lines rest
      else if c = '\'' && mode = .bare then
        let inside := rest.takeWhile (· ≠ '\'')
        if inside.length = rest.length then .error .quoteOpen
        else goOn (.literal inside true) .bare (rest.drop (inside.length + 1))
      else if c = '\\' then
        match rest with
        | [] => .ok ([.literal ['\\'] true], [])
        | '\n' :: rest => readFrom fuel mode (line + 1) rest
        | d :: rest => goOn (.literal (escaped mode d) true) mode rest
      else if c = '$' then
        match dollar quoted line rest with
        | .ok (part, behind) => goOn part mode behind
        | .error fault => .error fault
      else if c = '\x60' then
        match backquoted? rest with
        | some (inside, behind) => goOn (.substitution inside 1 quoted) mode behind
        | none => .error .backquoteOpen
      else goOn (.literal [c] quoted) mode rest

/-- The word at the head of a text and the text behind it. -/
def read? (line : Nat) (text : List Char) : Except Fault (Word × List Char) :=
  readFrom (text.length + 1) .bare line text

/-- A text that is read in one piece up to its end. -/
def ofWhole (mode : Mode) (line : Nat) (text : List Char) : Word :=
  match readFrom (text.length + 1) mode line text with
  | .ok (parts, _) => parts
  | .error _ => [.literal text true]

/-- A text that is one word from its beginning to its end, although it holds what ends words.
`fuel` is more than its length. -/
def ofTextFrom (fuel line : Nat) (text : List Char) : Word :=
  match fuel with
  | 0 => []
  | fuel + 1 =>
    match read? line text with
    | .ok (parts, []) => parts
    | .ok (parts, c :: rest) =>
      let passed := countLines (text.take (text.length - rest.length))
      parts ++ .literal [c] false :: ofTextFrom fuel (line + passed) rest
    | .error _ => [.literal text true]

def ofText (line : Nat) (text : List Char) : Word := ofTextFrom (text.length + 1) line text

/-- The operand of a parameter. -/
def ofOperand (quoted : Bool) (line : Nat) (text : List Char) : Word :=
  if quoted then ofWhole .operand line text else ofText line text

/-- The text of a word of which nothing is quoted or to be replaced. -/
def plain? : Word → Option (List Char)
  | [] => some []
  | .literal text false :: rest => (plain? rest).map (text ++ ·)
  | _ => none

/-- The name and the rest of a word such as `x=1`. -/
def assignment? (parts : Word) : Option (String × Word) :=
  let name := parts.takeWhile fun part => part ≠ .literal ['='] false
  match plain? name with
  | some text =>
    if isName text && name.length < parts.length then
      some (String.ofList text, parts.drop (name.length + 1))
    else none
  | none => none

end Word

end PipeShell
