import PipeShell.Program.Script.Word

/-!
# Arithmetic in scripts

Whole numbers of 64 bits with the usual operators.  `evaluate` takes an
expression whose parameters are still names: it looks up their values, and says
which it has changed.  An operand that makes no difference is read but not
evaluated.
-/

set_option autoImplicit false

namespace PipeShell.Arithmetic

inductive Token where
  | number (n : Int)
  | name (text : List Char)
  | operator (text : String)
  /-- What cannot stand in an expression. -/
  | stray
  deriving DecidableEq, Repr

/-- The operators, each before those that are the beginning of it. -/
def operators : List String :=
  ["<<=", ">>=", "<<", ">>", "<=", ">=", "==", "!=", "&&", "||", "*=", "/=", "%=", "+=", "-=",
    "&=", "|=", "^=", "=", "<", ">", "+", "-", "*", "/", "%", "(", ")", "!", "~", "&", "|", "^",
    "?", ":"]

def largest : Int := 9223372036854775807

/-- The value of a digit, which is too large for any base if it is none. -/
def digitValue (c : Char) : Nat :=
  if c.isDigit then c.toNat - 48
  else if 'a' ≤ c && c ≤ 'f' then c.toNat - 87
  else if 'A' ≤ c && c ≤ 'F' then c.toNat - 55
  else 99

/-- The number that digits at the head of a text write, and the text behind them: octal behind a
zero, hexadecimal behind `0x`. -/
def numberAhead (text : List Char) : Nat × List Char :=
  let read := fun (base : Nat) (text : List Char) =>
    let digits := text.takeWhile fun c => digitValue c < base
    (digits.foldl (fun n c => n * base + digitValue c) 0, text.drop digits.length)
  match text with
  | '0' :: x :: c :: rest =>
    if (x = 'x' || x = 'X') && digitValue c < 16 then read 16 (c :: rest) else read 8 text
  | '0' :: _ => read 8 text
  | text => read 10 text

/-- The whole number that a text is, perhaps with a sign and blanks around it.  Nothing but blanks
is zero. -/
def number? (text : List Char) : Option Int :=
  let isBlank := fun (c : Char) => c.isWhitespace
  let trimmed := text.dropWhile isBlank
  let (negative, digits) := match trimmed with
    | '-' :: digits => (true, digits)
    | '+' :: digits => (false, digits)
    | digits => (false, digits)
  let (n, rest) := numberAhead digits
  let n := if negative then -Int.ofNat n else Int.ofNat n
  if trimmed = [] then some 0
  else if rest.all isBlank && rest.length < digits.length && n.natAbs ≤ largest.natAbs then some n
  else none

/-- The tokens of an expression; some characters are skipped first. -/
def tokensFrom : Nat → List Char → List Token
  | _, [] => []
  | skipped + 1, _ :: rest => tokensFrom skipped rest
  | 0, c :: rest =>
    if c = ' ' || c = '\t' || c = '\n' then tokensFrom 0 rest
    else if c.isDigit then
      let (n, behind) := numberAhead (c :: rest)
      .number (min (Int.ofNat n) largest) :: tokensFrom (rest.length - behind.length) rest
    else if Word.isNameStart c then
      let more := rest.takeWhile Word.isNamePart
      .name (c :: more) :: tokensFrom more.length rest
    else
      match operators.find? fun operator => operator.toList.isPrefixOf (c :: rest) with
      | some operator => .operator operator :: tokensFrom (operator.length - 1) rest
      | none => .stray :: tokensFrom 0 rest

inductive Fault where
  /-- Something else has to stand there. -/
  | expecting (what : String)
  | divisionByZero
  /-- The value of a parameter is no number. -/
  | noNumber (text : List Char)
  deriving DecidableEq

/-- How tightly an operator between two numbers binds. -/
def strength? (operator : String) : Option Nat :=
  match operator with
  | "*" | "/" | "%" => some 10
  | "+" | "-" => some 9
  | "<<" | ">>" => some 8
  | "<" | ">" | "<=" | ">=" => some 7
  | "==" | "!=" => some 6
  | "&" => some 5
  | "^" => some 4
  | "|" => some 3
  | "&&" => some 2
  | "||" => some 1
  | _ => none

def truth (b : Bool) : Int := if b then 1 else 0

/-- The low 64 bits of a whole number, with the highest as its sign. -/
def wrap (n : Int) : Int := n.bmod 18446744073709551616

def combine (operator : String) (a b : Int) : Except Fault Int :=
  match operator with
  | "*" => .ok (wrap (a * b))
  | "/" => if b = 0 then .error .divisionByZero else .ok (wrap (a.tdiv b))
  | "%" => if b = 0 then .error .divisionByZero else .ok (a.tmod b)
  | "+" => .ok (wrap (a + b))
  | "-" => .ok (wrap (a - b))
  | "<<" => .ok (wrap (a * Nat.pow 2 (b % 64).toNat))
  | ">>" => .ok (a.fdiv (Nat.pow 2 (b % 64).toNat))
  | "<" => .ok (truth (a < b))
  | ">" => .ok (truth (a > b))
  | "<=" => .ok (truth (a ≤ b))
  | ">=" => .ok (truth (a ≥ b))
  | "==" => .ok (truth (a = b))
  | "!=" => .ok (truth (a ≠ b))
  | "&" => .ok (a.toInt64 &&& b.toInt64).toInt
  | "^" => .ok (a.toInt64 ^^^ b.toInt64).toInt
  | "|" => .ok (a.toInt64 ||| b.toInt64).toInt
  | "&&" => .ok (truth (a ≠ 0 && b ≠ 0))
  | "||" => .ok (truth (a ≠ 0 || b ≠ 0))
  | _ => .error (.expecting "EOF")

/-- Whether the second operand matters, given the first. -/
def needsSecond (operator : String) (a : Int) : Bool :=
  match operator with
  | "&&" => a ≠ 0
  | "||" => a = 0
  | _ => true

/-- The operator that an assignment such as `+=` applies first. -/
def assigned? (operator : String) : Option String :=
  if ["=", "*=", "/=", "%=", "+=", "-=", "<<=", ">>=", "&=", "|=", "^="].contains operator then
    some (operator.dropEnd 1).toString
  else none

/-- The parameters changed so far, the latest first. -/
abbrev Changes := List (List Char × Int)

/-- Evaluation changes parameters, or is impossible. -/
abbrev Evaluation := StateT Changes (Except Fault)

/-- The texts that parameters hold. -/
abbrev Values := List Char → List Char

/-- The number that a parameter holds. -/
def valueOf (values : Values) (name : List Char) : Evaluation Int := do
  match (← get).lookup name with
  | some n => return n
  | none =>
    match number? (values name) with
    | some n => return n
    | none => throw (.noNumber (values name))

mutual

/-- The value of a whole expression, and the tokens behind it.  What is not `live` makes no
difference. -/
def assignment (fuel : Nat) (values : Values) (live : Bool) (ts : List Token) :
    Evaluation (Int × List Token) :=
  match fuel with
  | 0 => throw (.expecting "primary")
  | fuel + 1 =>
    match ts with
    | .name name :: .operator operator :: rest =>
      match assigned? operator with
      | none => ternary fuel values live ts
      | some change => do
        let (n, rest) ← assignment fuel values live rest
        if !live then return (n, rest)
        let n ← if change = "" then pure n else do
          let old ← valueOf values name
          combine change old n
        modify fun changes => (name, n) :: changes
        return (n, rest)
    | ts => ternary fuel values live ts

/-- The value of a choice by `?` and `:`. -/
def ternary (fuel : Nat) (values : Values) (live : Bool) (ts : List Token) :
    Evaluation (Int × List Token) :=
  match fuel with
  | 0 => throw (.expecting "primary")
  | fuel + 1 => do
    let (condition, rest) ← joined fuel values live 1 ts
    match rest with
    | .operator "?" :: rest =>
      let (yes, rest) ← assignment fuel values (live && condition ≠ 0) rest
      match rest with
      | .operator ":" :: rest =>
        let (no, rest) ← ternary fuel values (live && condition = 0) rest
        return (if condition ≠ 0 then yes else no, rest)
      | _ => throw (.expecting "':'")
    | rest => return (condition, rest)

/-- The value of operands joined by operators at least so strong. -/
def joined (fuel : Nat) (values : Values) (live : Bool) (least : Nat) (ts : List Token) :
    Evaluation (Int × List Token) :=
  match fuel with
  | 0 => throw (.expecting "primary")
  | fuel + 1 => do
    let (first, rest) ← operand fuel values live ts
    joinedFrom fuel values live least first rest

def joinedFrom (fuel : Nat) (values : Values) (live : Bool) (least : Nat) (first : Int)
    (ts : List Token) : Evaluation (Int × List Token) :=
  match fuel with
  | 0 => throw (.expecting "primary")
  | fuel + 1 =>
    match ts with
    | .operator operator :: rest =>
      match strength? operator with
      | some strength =>
        if strength < least then return (first, ts)
        else do
          let matters := live && needsSecond operator first
          let (second, rest) ← joined fuel values matters (strength + 1) rest
          let value ← if live then combine operator first (if matters then second else 0)
            else pure second
          joinedFrom fuel values live least value rest
      | none => return (first, ts)
    | ts => return (first, ts)

/-- The value of the operand at the head of the tokens, and the tokens behind it. -/
def operand (fuel : Nat) (values : Values) (live : Bool) (ts : List Token) :
    Evaluation (Int × List Token) :=
  match fuel with
  | 0 => throw (.expecting "primary")
  | fuel + 1 => do
    match ts with
    | .number n :: rest => return (n, rest)
    | .name name :: rest =>
      let n ← if live then valueOf values name else pure 0
      return (n, rest)
    | .operator "-" :: rest =>
      let (n, rest) ← operand fuel values live rest
      return (wrap (-n), rest)
    | .operator "+" :: rest => operand fuel values live rest
    | .operator "!" :: rest =>
      let (n, rest) ← operand fuel values live rest
      return (truth (n = 0), rest)
    | .operator "~" :: rest =>
      let (n, rest) ← operand fuel values live rest
      return (-n - 1, rest)
    | .operator "(" :: rest =>
      let (n, rest) ← assignment fuel values live rest
      match rest with
      | .operator ")" :: rest => return (n, rest)
      | _ => throw (.expecting "')'")
    | _ => throw (.expecting "primary")

end

/-- The value of an expression, and the parameters that it changes, the last change of each first.
Each token takes at most eight steps down. -/
def evaluate (values : Values) (text : List Char) : Except Fault (Int × Changes) := do
  let ts := tokensFrom 0 text
  let ((n, rest), changes) ← (assignment (8 * ts.length + 8) values true ts).run []
  if rest = [] then .ok (n, changes) else .error (.expecting "EOF")

end PipeShell.Arithmetic
