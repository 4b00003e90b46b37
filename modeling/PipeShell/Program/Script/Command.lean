import PipeShell.Program.Script.Word

/-!
# Commands of a script

A script is a list of commands: simple ones, which are words and redirections,
and compound ones, which hold commands.  `Command.parse` reads a text.  What
comes before a mistake is read all the same, line by line, and a command that
complains takes the place of the rest.
-/

set_option autoImplicit false

namespace PipeShell

inductive RedirectTarget where
  | input (path : Word)
  | output (path : Word) (append : Bool)
  | copyOf (source : Word)
  /-- A text that stands in the script itself. -/
  | text (content : Word)
  deriving DecidableEq, Repr

structure Redirect where
  descriptor : Nat
  target : RedirectTarget
  deriving DecidableEq, Repr

inductive Command where
  | simple (line : Nat) (words : List Word) (redirects : List Redirect)
  /-- The commands run side by side, each reading what the one before it writes. -/
  | pipeline (parts : List Command)
  /-- The second runs if the first succeeds, or if it does not. -/
  | andThen (first : Command) (onSuccess : Bool) (second : Command)
  | negated (c : Command)
  | background (c : Command)
  | choice (condition yes no : List Command)
  /-- The body runs as long as the condition succeeds, or does not. -/
  | loop (condition : List Command) (onSuccess : Bool) (body : List Command)
  /-- The body runs for each of the items. -/
  | each (line : Nat) (name : String) (items : List Word) (body : List Command)
  /-- The commands of the first pattern that matches run. -/
  | select (line : Nat) (subject : Word) (cases : List (List Word × List Command))
  | group (body : List Command)
  /-- The body runs in a process of its own. -/
  | apart (body : List Command)
  | redirected (line : Nat) (c : Command) (redirects : List Redirect)
  | define (name : String) (body : Command)
  /-- The script cannot be read from here on. -/
  | mistake (line : Nat) (text : String)

namespace Command

/-! ## Tokens -/

inductive Token where
  | word (parts : Word)
  | newline
  /-- An operator that is no redirection. -/
  | mark (text : String)
  | redirect (descriptor : Option Nat) (operator : String)
  | here (descriptor : Option Nat) (content : Word)
  | unreadable (fault : Word.Fault)
  deriving DecidableEq, Repr

abbrev Tokens := List (Token × Nat)

/-- The lines of a text up to one that is the given line, and the text behind that line. -/
def linesUpTo (ending : List Char) (trimmed : Bool) :
    List (List Char) → List (List Char) × List (List Char)
  | [] => ([], [])
  | line :: rest =>
    let line := if trimmed then line.dropWhile (· = '\t') else line
    if line = ending then ([], rest)
    else
      let (inside, behind) := linesUpTo ending trimmed rest
      (line :: inside, behind)

/-- The text of a word without its quotes. -/
def unquoted (parts : Word) : List Char :=
  parts.flatMap fun part =>
    match part with
    | .literal text _ => text
    | _ => []

/-- The text that stands in the lines behind the current one, and the script without it.  `line` is
the number of its first line. -/
def hereText (ending : Word) (trimmed : Bool) (line : Nat) (text : List Char) :
    Word × List Char :=
  let current := text.takeWhile (· ≠ '\n')
  let below := text.drop (current.length + 1)
  let lines := below.splitOn '\n'
  let lines := if lines.getLast? = some [] then lines.dropLast else lines
  let (inside, behind) := linesUpTo (unquoted ending) trimmed lines
  let content := inside.flatMap fun line => line ++ ['\n']
  let isQuoted := ending.any fun part =>
    match part with
    | .literal _ quoted => quoted
    | _ => false
  let content := if isQuoted then [.literal content true] else Word.ofWhole .lines line content
  (content, current ++ '\n' :: behind.flatMap fun line => line ++ ['\n'])

/-- The operator at the head of a text. -/
def operator? (text : List Char) : Option String :=
  ["&&", "||", ";;", "<<-", "<<", "<&", "<>", ">>", ">&", ">|", "&", "|", ";", "<", ">", "(",
    ")"].find? fun operator => operator.toList.isPrefixOf text

def isRedirect (operator : String) : Bool :=
  ["<<-", "<<", "<&", "<>", ">>", ">&", ">|", "<", ">"].contains operator

/-- The number of a descriptor before a redirection, which has one digit. -/
def descriptorOf? (parts : Word) : Option Nat :=
  match Word.plain? parts with
  | some [digit] => if digit.isDigit then some (digit.toNat - 48) else none
  | _ => none

/-- The tokens of a text with the number of the line each ends on.  `fuel` is more than the length
of the text.  `taken` lines below the current one have been read for its commands. -/
def tokens (fuel line taken : Nat) (descriptor : Option Nat) (text : List Char) : Tokens :=
  match fuel with
  | 0 => []
  | fuel + 1 =>
    match text with
    | [] => []
    | '\n' :: rest =>
      let next := line + 1 + taken
      (.newline, next) :: tokens fuel next 0 none rest
    | '\\' :: '\n' :: rest => tokens fuel (line + 1) taken none rest
    | ' ' :: rest => tokens fuel line taken none rest
    | '\t' :: rest => tokens fuel line taken none rest
    | '#' :: rest => tokens fuel line taken none (rest.dropWhile (· ≠ '\n'))
    | text =>
      match operator? text with
      | some operator =>
        let rest := text.drop operator.length
        let plain := fun (token : Token) => (token, line) :: tokens fuel line taken none rest
        if operator = "<<" || operator = "<<-" then
          match Word.read? line (rest.dropWhile fun c => c = ' ' || c = '\t') with
          | .ok ([], _) => plain (.redirect descriptor operator)
          | .ok (ending, behind) =>
            let (content, left) := hereText ending (operator = "<<-") (line + 1 + taken) behind
            let more := Word.countLines behind - Word.countLines left
            (.here descriptor content, line) :: tokens fuel line (taken + more) none left
          | .error fault => [(.unreadable fault, line)]
        else if isRedirect operator then plain (.redirect descriptor operator)
        else plain (.mark operator)
      | none =>
        match Word.read? line text with
        | .error fault => [(.unreadable fault, line)]
        | .ok (parts, behind) =>
          let line := line + Word.countLines (text.take (text.length - behind.length))
          match descriptorOf? parts, behind with
          | some n, '<' :: _ => tokens fuel line taken (some n) behind
          | some n, '>' :: _ => tokens fuel line taken (some n) behind
          | _, _ => (.word parts, line) :: tokens fuel line taken none behind

/-! ## Mistakes -/

/-- A mistake and the line on which it was noticed. -/
structure Mistake where
  line : Nat
  text : String

/-- Reads tokens. -/
abbrev Parser := StateT Tokens (Except Mistake)

def keywords : List String :=
  ["if", "then", "elif", "else", "fi", "while", "until", "do", "done", "for", "case", "esac", "in",
    "!", "\x7b", "\x7d"]

/-- The word as a keyword. -/
def keyword? (parts : Word) : Option String :=
  match Word.plain? parts with
  | some text => keywords.find? fun word => word.toList = text
  | none => none

/-- The keywords that end a list of commands. -/
def isClosing (keyword : String) : Bool :=
  ["then", "elif", "else", "fi", "do", "done", "esac", "\x7d"].contains keyword

def tokenName : Token → String
  | .word parts =>
    match keyword? parts with
    | some keyword => s!"\"{keyword}\""
    | none => "word"
  | .newline => "newline"
  | .mark text => s!"\"{text}\""
  | .redirect .. => "redirection"
  | .here .. => "redirection"
  | .unreadable _ => "word"

def faultText : Word.Fault → String
  | .quoteOpen => "Unterminated quoted string"
  | .backquoteOpen => "EOF in backquote substitution"
  | .braceOpen => "Missing '\x7d'"
  | .parenthesisOpen => "end of file unexpected (expecting \")\")"
  | .arithmeticOpen => "Missing '))'"

/-- The next token cannot stand here.  `last` is the number of the last line. -/
def unexpected {α : Type} (last : Nat) (expected : Option String) : Parser α := do
  let tail := (expected.map fun name => s!" (expecting {name})").getD ""
  match ← get with
  | [] => throw ⟨last, "end of file unexpected" ++ tail⟩
  | (.unreadable .braceOpen, line) :: _ => throw ⟨line, faultText .braceOpen⟩
  | (.unreadable fault, _) :: _ => throw ⟨last, faultText fault⟩
  | (token, line) :: _ => throw ⟨line, s!"{tokenName token} unexpected" ++ tail⟩

/-! ## Tokens in turn -/

def peek? : Parser (Option Token) := do
  return (← get).head?.map Prod.fst

/-- The line of the next token. -/
def lineHere (last : Nat) : Parser Nat := do
  return ((← get).head?.map Prod.snd).getD last

def advance : Parser Unit := modify fun ts => ts.drop 1

def skipNewlines : Parser Unit :=
  modify fun ts => ts.dropWhile fun token => token.1 = .newline

/-- The next token, if it is a keyword. -/
def peekKeyword? : Parser (Option String) := do
  match ← peek? with
  | some (.word parts) => return keyword? parts
  | _ => return none

def expectKeyword (last : Nat) (keyword : String) : Parser Unit := do
  let found ← peekKeyword?
  if found = some keyword then advance else unexpected last (some s!"\"{keyword}\"")

def expectMark (last : Nat) (text : String) : Parser Unit := do
  let found ← peek?
  if found = some (.mark text) then advance else unexpected last (some s!"\"{text}\"")

/-- Whether the next token is an operator, which is taken then. -/
def takeMark (text : String) : Parser Bool := do
  let found ← peek?
  if found = some (.mark text) then
    advance
    return true
  else return false

def redirectOf (descriptor : Option Nat) (operator : String) (target : Word) : Redirect :=
  match operator with
  | "<" | "<>" => ⟨descriptor.getD 0, .input target⟩
  | ">>" => ⟨descriptor.getD 1, .output target true⟩
  | ">&" => ⟨descriptor.getD 1, .copyOf target⟩
  | "<&" => ⟨descriptor.getD 0, .copyOf target⟩
  | _ => ⟨descriptor.getD 1, .output target false⟩

/-- The words and redirections at the head of the tokens, and the tokens behind them. -/
def wordsAhead : Tokens → List Word × List Redirect × Tokens
  | (.word parts, _) :: rest =>
    let (words, redirects, behind) := wordsAhead rest
    (parts :: words, redirects, behind)
  | (.here descriptor content, _) :: rest =>
    let (words, redirects, behind) := wordsAhead rest
    (words, ⟨descriptor.getD 0, .text content⟩ :: redirects, behind)
  | (.redirect descriptor operator, _) :: (.word target, _) :: rest =>
    let (words, redirects, behind) := wordsAhead rest
    (words, redirectOf descriptor operator target :: redirects, behind)
  | ts => ([], [], ts)

/-- The words and redirections of a simple command. -/
def simpleParts (last : Nat) : Parser (List Word × List Redirect) := do
  let (words, redirects, behind) := wordsAhead (← get)
  set behind
  match behind with
  | (.redirect .., _) :: _ =>
    advance
    unexpected last none
  | (.unreadable _, _) :: _ => unexpected last none
  | _ => return (words, redirects)

/-- The redirections at the head of the tokens. -/
def redirectsAhead : Tokens → List Redirect × Tokens
  | (.here descriptor content, _) :: rest =>
    let (redirects, behind) := redirectsAhead rest
    (⟨descriptor.getD 0, .text content⟩ :: redirects, behind)
  | (.redirect descriptor operator, _) :: (.word target, _) :: rest =>
    let (redirects, behind) := redirectsAhead rest
    (redirectOf descriptor operator target :: redirects, behind)
  | ts => ([], ts)

/-- A compound command with the redirections behind it. -/
def withRedirects (line : Nat) (c : Command) : Parser Command := do
  let (redirects, behind) := redirectsAhead (← get)
  set behind
  return if redirects.isEmpty then c else .redirected line c redirects

/-- The items of a loop up to the end of the line. -/
def loopItems : Tokens → List Word × Tokens
  | (.word parts, _) :: rest =>
    let (items, behind) := loopItems rest
    (parts :: items, behind)
  | ts => ([], ts)

/-- The patterns of a case up to the closing parenthesis. -/
def patternsAhead : Tokens → List Word × Tokens
  | (.word parts, _) :: (.mark "|", _) :: rest =>
    let (patterns, behind) := patternsAhead rest
    (parts :: patterns, behind)
  | (.word parts, _) :: rest => ([parts], rest)
  | ts => ([], ts)

/-! ## Parsing -/

mutual

/-- Commands up to a token that cannot begin one.  `fuel` bounds the depth and the length. -/
def listOf (fuel last : Nat) : Parser (List Command) :=
  match fuel with
  | 0 => unexpected last none
  | fuel + 1 => do
    skipNewlines
    let keyword ← peekKeyword?
    match ← peek? with
    | none => return []
    | some (.mark ")") => return []
    | some (.mark ";;") => return []
    | some _ =>
      if (keyword.map isClosing).getD false then return []
      else
        let first ← chainOf fuel last
        match ← peek? with
        | some (.mark "&") =>
          advance
          return .background first :: (← listOf fuel last)
        | some (.mark ";") =>
          advance
          return first :: (← listOf fuel last)
        | some .newline => return first :: (← listOf fuel last)
        | _ => return [first]

/-- Pipelines joined by `&&` and `||`. -/
def chainOf (fuel last : Nat) : Parser Command :=
  match fuel with
  | 0 => unexpected last none
  | fuel + 1 => do
    let first ← pipelineOf fuel last
    chainFrom fuel last first

/-- The pipelines that follow one. -/
def chainFrom (fuel last : Nat) (first : Command) : Parser Command :=
  match fuel with
  | 0 => unexpected last none
  | fuel + 1 => do
    let both ← takeMark "&&"
    let either ← if both then pure false else takeMark "||"
    if both || either then
      skipNewlines
      let second ← pipelineOf fuel last
      chainFrom fuel last (.andThen first both second)
    else return first

/-- Commands joined by `|`, perhaps behind a `!`. -/
def pipelineOf (fuel last : Nat) : Parser Command :=
  match fuel with
  | 0 => unexpected last none
  | fuel + 1 => do
    let keyword ← peekKeyword?
    if keyword = some "!" then
      advance
      return .negated (← partsOf fuel last [])
    else partsOf fuel last []

/-- The parts of a pipeline behind those already read. -/
def partsOf (fuel last : Nat) (before : List Command) : Parser Command :=
  match fuel with
  | 0 => unexpected last none
  | fuel + 1 => do
    let c ← commandOf fuel last
    let more ← takeMark "|"
    if more then
      skipNewlines
      partsOf fuel last (before ++ [c])
    else if before.isEmpty then return c
    else return .pipeline (before ++ [c])

def commandOf (fuel last : Nat) : Parser Command :=
  match fuel with
  | 0 => unexpected last none
  | fuel + 1 => do
    let line ← lineHere last
    match ← get with
    | (.mark "(", _) :: rest =>
      set rest
      let body ← bodyOf fuel last
      expectMark last ")"
      withRedirects line (.apart body)
    | (.word parts, _) :: (.mark "(", _) :: rest =>
      if (Word.assignment? parts).isSome then simpleOf last line
      else
        set rest
        expectMark last ")"
        let name := (Word.plain? parts).getD []
        if !Word.isName name then throw ⟨line, "Bad function name"⟩
        skipNewlines
        return .define (String.ofList name) (← commandOf fuel last)
    | (.word parts, _) :: _ =>
      match keyword? parts with
      | some "if" =>
        advance
        withRedirects line (← choiceOf fuel last)
      | some "while" =>
        advance
        withRedirects line (← loopOf fuel last true)
      | some "until" =>
        advance
        withRedirects line (← loopOf fuel last false)
      | some "for" =>
        advance
        withRedirects line (← eachOf fuel last line)
      | some "case" =>
        advance
        withRedirects line (← selectOf fuel last line)
      | some "\x7b" =>
        advance
        let body ← bodyOf fuel last
        expectKeyword last "\x7d"
        withRedirects line (.group body)
      | some "in" => simpleOf last line
      | some _ => unexpected last none
      | none => simpleOf last line
    | (.redirect .., _) :: _ => simpleOf last line
    | (.here .., _) :: _ => simpleOf last line
    | _ => unexpected last none

def simpleOf (last line : Nat) : Parser Command := do
  let (words, redirects) ← simpleParts last
  return .simple line words redirects

/-- A list of commands that is not empty. -/
def bodyOf (fuel last : Nat) : Parser (List Command) :=
  match fuel with
  | 0 => unexpected last none
  | fuel + 1 => do
    skipNewlines
    let body ← listOf fuel last
    let next ← peek?
    if body.isEmpty && next.isSome then unexpected last none else return body

/-- A choice behind its keyword, up to the word that closes it. -/
def choiceOf (fuel last : Nat) : Parser Command :=
  match fuel with
  | 0 => unexpected last none
  | fuel + 1 => do
    let condition ← bodyOf fuel last
    expectKeyword last "then"
    let yes ← bodyOf fuel last
    match ← peekKeyword? with
    | some "elif" =>
      advance
      return .choice condition yes [← choiceOf fuel last]
    | some "else" =>
      advance
      let no ← bodyOf fuel last
      expectKeyword last "fi"
      return .choice condition yes no
    | _ =>
      expectKeyword last "fi"
      return .choice condition yes []

/-- The body of a loop between its keywords. -/
def doneOf (fuel last : Nat) : Parser (List Command) :=
  match fuel with
  | 0 => unexpected last none
  | fuel + 1 => do
    expectKeyword last "do"
    let body ← bodyOf fuel last
    expectKeyword last "done"
    return body

def loopOf (fuel last : Nat) (onSuccess : Bool) : Parser Command :=
  match fuel with
  | 0 => unexpected last none
  | fuel + 1 => do
    let condition ← bodyOf fuel last
    return .loop condition onSuccess (← doneOf fuel last)

def eachOf (fuel last line : Nat) : Parser Command :=
  match fuel with
  | 0 => unexpected last none
  | fuel + 1 => do
    let place ← lineHere last
    let name := match ← peek? with
      | some (.word parts) => (Word.plain? parts).getD []
      | _ => []
    if !Word.isName name then throw ⟨place, "Bad for loop variable"⟩
    advance
    skipNewlines
    let keyword ← peekKeyword?
    if keyword = some "in" then
      let (items, behind) := loopItems ((← get).drop 1)
      set behind
      let _ ← takeMark ";"
      skipNewlines
      return .each line (String.ofList name) items (← doneOf fuel last)
    else
      let _ ← takeMark ";"
      skipNewlines
      return .each line (String.ofList name) [[.arguments false true]] (← doneOf fuel last)

def selectOf (fuel last line : Nat) : Parser Command :=
  match fuel with
  | 0 => unexpected last none
  | fuel + 1 => do
    match ← peek? with
    | some (.word subject) =>
      advance
      skipNewlines
      expectKeyword last "in"
      return .select line subject (← casesOf fuel last)
    | _ => unexpected last (some "word")

/-- The cases of a selection, up to the word that closes it. -/
def casesOf (fuel last : Nat) : Parser (List (List Word × List Command)) :=
  match fuel with
  | 0 => unexpected last none
  | fuel + 1 => do
    skipNewlines
    let keyword ← peekKeyword?
    if keyword = some "esac" then
      advance
      return []
    else
      let _ ← takeMark "("
      let (patterns, behind) := patternsAhead (← get)
      set behind
      expectMark last ")"
      let body ← listOf fuel last
      skipNewlines
      let more ← takeMark ";;"
      if more then return (patterns, body) :: (← casesOf fuel last)
      else
        let keyword ← peekKeyword?
        if keyword = some "esac" then
          advance
          return [(patterns, body)]
        else unexpected last (some "\";;\"")

end

/-- The commands of one line. -/
def lineOf (fuel last : Nat) : Parser (List Command) :=
  match fuel with
  | 0 => unexpected last none
  | fuel + 1 => do
    match ← peek? with
    | none => return []
    | some .newline =>
      advance
      return []
    | some _ =>
      let first ← chainOf (fuel + 1) last
      match ← peek? with
      | none => return [first]
      | some .newline =>
        advance
        return [first]
      | some (.mark "&") =>
        advance
        return .background first :: (← lineOf fuel last)
      | some (.mark ";") =>
        advance
        return first :: (← lineOf fuel last)
      | some _ => unexpected last none

/-- The commands of a script, line by line. -/
def program (fuel last : Nat) (ts : Tokens) : List Command :=
  match fuel with
  | 0 => []
  | fuel + 1 =>
    if ts.isEmpty then []
    else match lineOf (16 * ts.length + 16) last ts with
      | .ok (commands, behind) => commands ++ program fuel last behind
      | .error found => [Command.mistake found.line found.text]

/-- The commands of a text.  `line` is the number of its first line. -/
def parse (line : Nat) (text : List Char) : List Command :=
  let ts := tokens (2 * text.length + 2) line 0 none text
  program (ts.length + 1) (line + Word.countLines text) ts

end Command

end PipeShell
