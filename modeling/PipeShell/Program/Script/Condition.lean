import PipeShell.Program.Script.Word

/-!
# Conditions

The arguments of `test` are a condition on texts, numbers and files.
`Condition.evaluate` reads and decides it in one go, as the meaning of an
argument depends on those beside it.  A reader stands on an argument, the first
of the list it is given, and ends on the last one that it has used.
-/

set_option autoImplicit false

namespace PipeShell.Condition

/-- Operators with one operand behind them. -/
def unary : List String :=
  ["-b", "-c", "-d", "-e", "-f", "-g", "-h", "-k", "-L", "-n", "-p", "-r", "-s", "-S", "-t", "-u",
    "-w", "-x", "-z", "-G", "-O"]

/-- Operators between two operands. -/
def binary : List String :=
  ["=", "!=", "<", ">", "-eq", "-ne", "-gt", "-ge", "-lt", "-le", "-nt", "-ot", "-ef"]

/-- What a condition is asked about a file. -/
abbrev Probe := Char → Bytes → Bool

/-- What an argument is taken for. -/
inductive Kind where
  | ending
  | operand
  | unary (operator : String)
  | binary (operator : String)
  | both
  | either
  | not
  | opening
  | closing
  deriving DecidableEq

/-- What looks like an operator with one operand is an operand itself if nothing follows it, or an
operator between it and another operand. -/
def isOperand (rest : List Bytes) : Bool :=
  match rest with
  | [] => true
  | [_] => false
  | next :: _ => binary.contains (Text.decodeLossy next)

def kindOf : List Bytes → Kind
  | [] => .ending
  | first :: rest =>
    let text := Text.decodeLossy first
    if text = "-a" then .both
    else if text = "-o" then .either
    else if text = "!" then .not
    else if text = "(" then (if rest = [] then .operand else .opening)
    else if text = ")" then .closing
    else if unary.contains text then (if isOperand rest then .operand else .unary text)
    else if binary.contains text then .binary text
    else .operand

/-- A whole number, perhaps with a sign and with blanks around it. -/
def number? (text : Bytes) : Option Int :=
  let isBlank := fun (c : Char) => c = ' ' || c = '\t' || c = '\n'
  let trimmed := (Word.ofBytes text).dropWhile isBlank
  let trimmed := (trimmed.reverse.dropWhile isBlank).reverse
  let (negative, digits) := match trimmed with
    | '-' :: digits => (true, digits)
    | '+' :: digits => (false, digits)
    | digits => (false, digits)
  let n := digits.foldl (fun (n : Nat) c => n * 10 + (c.toNat - 48)) 0
  if digits ≠ [] && digits.all Char.isDigit && n < 9223372036854775808 then
    some (if negative then -Int.ofNat n else Int.ofNat n)
  else none

def numberOf (text : Bytes) : Except String Int :=
  match number? text with
  | some n => .ok n
  | none => .error s!"Illegal number: {Text.decodeLossy text}"

/-- Decides an operator between two operands. -/
def compare (probe : Probe) (a : Bytes) (operator : String) (b : Bytes) : Except String Bool :=
  let onNumbers := fun (holds : Int → Int → Bool) => do
    let x ← numberOf a
    let y ← numberOf b
    return holds x y
  match operator with
  | "=" => .ok (a = b)
  | "!=" => .ok (a ≠ b)
  | "<" => .ok (a < b)
  | ">" => .ok (b < a)
  | "-eq" => onNumbers fun x y => x = y
  | "-ne" => onNumbers fun x y => x ≠ y
  | "-gt" => onNumbers fun x y => x > y
  | "-ge" => onNumbers fun x y => x ≥ y
  | "-lt" => onNumbers fun x y => x < y
  | "-le" => onNumbers fun x y => x ≤ y
  | "-ef" => .ok (a = b && probe 'e' a)
  | _ => .ok false

/-- Decides an operator with one operand. -/
def ask (probe : Probe) (operator : String) (operand : Bytes) : Bool :=
  match operator with
  | "-z" => operand = []
  | "-n" => operand ≠ []
  | operator => probe ((operator.toList[1]?).getD ' ') operand

mutual

/-- Decides conditions joined by `-o`, the first of which begins with a known kind of argument. -/
def disjunction (fuel : Nat) (probe : Probe) (kind : Kind) (here : List Bytes) :
    Except String (Bool × List Bytes) :=
  match fuel with
  | 0 => .ok (false, here)
  | fuel + 1 => do
    let (first, here) ← conjunction fuel probe kind here
    if kindOf (here.drop 1) ≠ .either then .ok (first, here)
    else
      let (second, here) ← disjunction fuel probe (kindOf (here.drop 2)) (here.drop 2)
      .ok (first || second, here)

/-- Decides conditions joined by `-a`. -/
def conjunction (fuel : Nat) (probe : Probe) (kind : Kind) (here : List Bytes) :
    Except String (Bool × List Bytes) :=
  match fuel with
  | 0 => .ok (false, here)
  | fuel + 1 => do
    let (first, here) ← negation fuel probe kind here
    if kindOf (here.drop 1) ≠ .both then .ok (first, here)
    else
      let (second, here) ← conjunction fuel probe (kindOf (here.drop 2)) (here.drop 2)
      .ok (first && second, here)

def negation (fuel : Nat) (probe : Probe) (kind : Kind) (here : List Bytes) :
    Except String (Bool × List Bytes) :=
  match fuel with
  | 0 => .ok (false, here)
  | fuel + 1 =>
    if kind ≠ .not then primary fuel probe kind here
    else do
      let next := kindOf (here.drop 1)
      let (holds, here) ← negation fuel probe next (if next = .ending then here else here.drop 1)
      .ok (!holds, here)

def primary (fuel : Nat) (probe : Probe) (kind : Kind) (here : List Bytes) :
    Except String (Bool × List Bytes) :=
  match fuel with
  | 0 => .ok (false, here)
  | fuel + 1 =>
    match kind with
    | .ending => .ok (false, here)
    | .opening => do
      let inside := here.drop 1
      if kindOf inside = .closing then .ok (false, inside)
      else
        let (holds, here) ← disjunction fuel probe (kindOf inside) inside
        if kindOf (here.drop 1) = .closing then .ok (holds, here.drop 1)
        else .error "closing paren expected"
    | .unary operator =>
      match here.drop 1 with
      | [] => .error s!"{operator}: argument expected"
      | operand :: rest => .ok (ask probe operator operand, operand :: rest)
    | _ =>
      match kindOf (here.drop 1), here.drop 2 with
      | .binary operator, [] => .error s!"{operator}: argument expected"
      | .binary operator, second :: rest =>
        (compare probe (here.headD []) operator second).map fun holds => (holds, second :: rest)
      | _, _ => .ok ((here.headD []) ≠ [], here)

end

/-- What is left of some arguments without what stands around a condition, how it begins, and
whether it is turned around.  Of three or four arguments a leading `!` turns the condition around,
once at most, and a pair of parentheses means nothing, unless an operator stands between two
operands. -/
def stripped (negated : Bool) : List Bytes → Bool × Kind × List Bytes
  | [] => (negated, .ending, [])
  | first :: rest =>
    let isBinary := match rest with
      | [operator, _] => binary.contains (Text.decodeLossy operator)
      | _ => false
    let isShort := rest.length = 2 || rest.length = 3
    if isBinary then (negated, .operand, first :: rest)
    else if isShort && first = Text.encode "(" && rest.getLast? = some (Text.encode ")") then
      (negated, kindOf rest.dropLast, rest.dropLast)
    else if isShort && first = Text.encode "!" then stripped true rest
    else (negated, kindOf (first :: rest), first :: rest)

/-- Decides a condition of some arguments. -/
def evaluate (probe : Probe) (arguments : List Bytes) : Except String Bool := do
  let (negated, kind, arguments) := stripped false arguments
  let (holds, here) ← disjunction (8 * arguments.length + 8) probe kind arguments
  match here with
  | last :: _ :: _ => .error s!"{Text.decodeLossy last}: unexpected operator"
  | _ => .ok (holds != negated)

end PipeShell.Condition
