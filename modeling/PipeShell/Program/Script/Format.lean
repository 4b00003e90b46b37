import PipeShell.Program.Script.Condition
import PipeShell.Text.Backslash

/-!
# Formatted output

A format is text with places for arguments.  It is used again and again until
the arguments run out; a place without an argument gets nothing, or zero.
-/

set_option autoImplicit false

namespace PipeShell.Format

/-- A place in a format: how its argument is written, and how wide. -/
structure Place where
  flags : List Char
  width : Nat
  precision : Option Nat
  conversion : Char
  deriving DecidableEq

inductive Piece where
  | text (bytes : Bytes)
  | place (p : Place)
  | malformed (text : List Char)

def numberOf (digits : List Char) : Nat :=
  digits.foldl (fun n c => n * 10 + (c.toNat - 48)) 0

/-- The place behind a percent sign, and how many characters it takes. -/
def place (text : List Char) : Piece × Nat :=
  let flags := text.takeWhile fun c => "-+ 0#".toList.contains c
  let rest := text.drop flags.length
  let width := rest.takeWhile Char.isDigit
  let rest := rest.drop width.length
  let (dot, precision) := match rest with
    | '.' :: rest => (1, some (rest.takeWhile Char.isDigit))
    | _ => (0, none)
  let taken := flags.length + width.length + dot + (precision.getD []).length
  match text.drop taken with
  | c :: _ =>
    if "sdiouxXcb".toList.contains c then
      (.place ⟨flags, numberOf width, precision.map numberOf, c⟩, taken + 1)
    else (.malformed (text.take (taken + 1)), taken + 1)
  | [] => (.malformed text, taken)

/-- The pieces of a format; some characters are skipped first. -/
def piecesFrom : Nat → List Char → List Piece
  | _, [] => []
  | skipped + 1, _ :: rest => piecesFrom skipped rest
  | 0, '%' :: '%' :: rest => .text [37] :: piecesFrom 1 ('%' :: rest)
  | 0, '%' :: rest =>
    let (piece, taken) := place rest
    piece :: piecesFrom taken rest
  | 0, '\\' :: rest =>
    let bytes := Word.toBytes rest
    let digits := (bytes.take 3).takeWhile Text.isOctal
    if digits ≠ [] then .text [Text.octalValue digits] :: piecesFrom digits.length rest
    else match Text.escape? false bytes with
      | some (b, taken) => .text [b] :: piecesFrom taken rest
      | none => .text [92] :: piecesFrom 0 rest
  | 0, c :: rest => .text (Word.toBytes [c]) :: piecesFrom 0 rest

/-! ## Writing -/

def digitsIn (base : Nat) (upper : Bool) (n : Nat) : List Char :=
  let digits := Nat.toDigits base n
  if upper then digits.map Char.toUpper else digits

/-- A text brought to a width. -/
def pad (p : Place) (text : List Char) : List Char :=
  let missing := p.width - text.length
  if p.flags.contains '-' then text ++ List.replicate missing ' '
  else List.replicate missing ' ' ++ text

/-- A whole number as its place wants it. -/
def writeNumber (p : Place) (n : Int) : List Char :=
  let isSigned := p.conversion = 'd' || p.conversion = 'i'
  let size := if isSigned then n.natAbs else (n.emod 18446744073709551616).toNat
  let digits := match p.conversion with
    | 'o' => digitsIn 8 false size
    | 'x' => digitsIn 16 false size
    | 'X' => digitsIn 16 true size
    | _ => digitsIn 10 false size
  let digits := List.replicate ((p.precision.getD 1) - digits.length) '0' ++ digits
  let sign := if isSigned && n < 0 then ['-']
    else if isSigned && p.flags.contains '+' then ['+']
    else if isSigned && p.flags.contains ' ' then [' ']
    else if p.flags.contains '#' && p.conversion = 'x' && n ≠ 0 then ['0', 'x']
    else if p.flags.contains '#' && p.conversion = 'X' && n ≠ 0 then ['0', 'X']
    else if p.flags.contains '#' && p.conversion = 'o' && digits.head? ≠ some '0' then ['0']
    else []
  let isFilled := p.flags.contains '0' && !p.flags.contains '-' && p.precision.isNone
  let zeros := if isFilled then p.width - sign.length - digits.length else 0
  pad p (sign ++ List.replicate zeros '0' ++ digits)

/-- The number that an argument writes: a character behind a quote, or digits; and whether it is
one. -/
def argumentNumber (text : Bytes) : Int × Bool :=
  match Word.ofBytes text with
  | [] => (0, true)
  | '"' :: c :: _ => (c.toNat, true)
  | '\'' :: c :: _ => (c.toNat, true)
  | chars =>
    let isHex := match chars with
      | '0' :: 'x' :: _ => true
      | _ => false
    match Condition.number? text with
    | some n =>
      if chars.head? = some '0' && 1 < chars.length then
        (Int.ofNat (chars.foldl (fun (n : Nat) c => n * 8 + (c.toNat - 48)) 0), true)
      else (n, true)
    | none =>
      if isHex then
        let digits := (text.drop 2).map Text.hexDigit?
        (Int.ofNat (digits.foldl (fun (n : Nat) d => n * 16 + d.getD 0) 0),
          digits.all Option.isSome)
      else
        let digits := chars.takeWhile Char.isDigit
        (numberOf digits, false)

/-- What has been written so far. -/
structure Output where
  written : Bytes
  complaints : List String
  /-- Nothing more is to be written. -/
  ended : Bool

def Output.append (o : Output) (text : Bytes) : Output := { o with written := o.written ++ text }

/-- Writes an argument in its place. -/
def writePlace (p : Place) (argument : Option Bytes) (o : Output) : Output :=
  let text := argument.getD []
  match p.conversion with
  | 's' =>
    let text := (p.precision.map fun n => text.take n).getD text
    o.append (Word.toBytes (pad p (Word.ofBytes text)))
  | 'b' =>
    let (text, ends) := Text.unescape false text
    { o.append (Word.toBytes (pad p (Word.ofBytes text))) with ended := ends }
  | 'c' => o.append (Word.toBytes (pad p (Word.ofBytes (text.take 1))))
  | _ =>
    let (n, isNumber) := argumentNumber text
    let shown := Text.decodeLossy text
    let digits := (Word.ofBytes text).any Char.isDigit
    let complaints := if isNumber then []
      else if digits then [s!"{shown}: not completely converted"]
      else [s!"{shown}: expected numeric value"]
    { o.append (Word.toBytes (writeNumber p n)) with complaints := o.complaints ++ complaints }

/-- Writes the pieces once, with the arguments that are left. -/
def writeOnce : List Piece → List Bytes → Output → Except String (Output × List Bytes)
  | [], arguments, o => .ok (o, arguments)
  | piece :: rest, arguments, o =>
    if o.ended then .ok (o, arguments)
    else match piece with
      | .text bytes => writeOnce rest arguments (o.append bytes)
      | .place p => writeOnce rest (arguments.drop 1) (writePlace p arguments.head? o)
      | .malformed [] => .error "missing format character"
      | .malformed text => .error s!"%{String.ofList text}: invalid directive"

/-- Writes the pieces until the arguments run out.  `fuel` is the number of arguments. -/
def writeAll (fuel : Nat) (pieces : List Piece) (arguments : List Bytes) (o : Output) :
    Except String Output :=
  match writeOnce pieces arguments o with
  | .error text => .error text
  | .ok (o, rest) =>
    match fuel with
    | 0 => .ok o
    | fuel + 1 =>
      if rest = [] || o.ended || rest.length = arguments.length then .ok o
      else writeAll fuel pieces rest o

/-- What a format makes of arguments. -/
def apply (format : Bytes) (arguments : List Bytes) : Except String Output :=
  writeAll arguments.length (piecesFrom 0 (Word.ofBytes format)) arguments ⟨[], [], false⟩

end PipeShell.Format
