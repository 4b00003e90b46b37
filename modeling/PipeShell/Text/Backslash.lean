import PipeShell.Text.Lines

/-!
# Escapes with a backslash

A backslash and what follows it stand for one byte: a letter for a control
byte, or octal digits.  `\c` ends the output.  Some programs also know
hexadecimal digits behind `\x`.
-/

set_option autoImplicit false

namespace PipeShell.Text

def isOctal (b : UInt8) : Bool := 48 ≤ b && b ≤ 55

/-- The value of a hexadecimal digit. -/
def hexDigit? (b : UInt8) : Option Nat :=
  if 48 ≤ b && b ≤ 57 then some (b.toNat - 48)
  else if 65 ≤ b && b ≤ 70 then some (b.toNat - 55)
  else if 97 ≤ b && b ≤ 102 then some (b.toNat - 87)
  else none

def octalValue (digits : Bytes) : UInt8 :=
  (digits.foldl (fun (n : Nat) d => n * 8 + (d.toNat - 48)) 0).toUInt8

/-- The control byte that a letter stands for, and the backslash for itself. -/
def controlByte? (letter : UInt8) : Option UInt8 :=
  match Char.ofNat letter.toNat with
  | 'a' => some 7
  | 'b' => some 8
  | 'e' => some 27
  | 'f' => some 12
  | 'n' => some 10
  | 'r' => some 13
  | 't' => some 9
  | 'v' => some 11
  | '\\' => some 92
  | _ => none

/-- The byte that an escape stands for and how many bytes behind the backslash belong to it, of
what follows the backslash. -/
def escape? (withHex : Bool) (text : Bytes) : Option (UInt8 × Nat) :=
  match text with
  | [] => none
  | letter :: rest =>
    match controlByte? letter with
    | some b => some (b, 1)
    | none =>
      if isOctal letter then
        let behindZero := (rest.take 3).takeWhile isOctal
        let digits := (text.take 3).takeWhile isOctal
        if letter = 48 then some (octalValue behindZero, behindZero.length + 1)
        else some (octalValue digits, digits.length)
      else if withHex && letter = 120 then
        match (rest.take 2).map hexDigit? with
        | some high :: some low :: _ => some ((high * 16 + low).toUInt8, 3)
        | some digit :: _ => some (digit.toUInt8, 2)
        | _ => none
      else none

/-- A text with its escapes replaced, and whether output ends there; some bytes are skipped
first. -/
def unescapeFrom (withHex : Bool) : Nat → Bytes → Bytes × Bool
  | _, [] => ([], false)
  | skipped + 1, _ :: rest => unescapeFrom withHex skipped rest
  | 0, b :: rest =>
    if b ≠ 92 then
      let (more, ends) := unescapeFrom withHex 0 rest
      (b :: more, ends)
    else if rest.head? = some 99 then ([], true)
    else match escape? withHex rest with
      | some (byte, taken) =>
        let (more, ends) := unescapeFrom withHex taken rest
        (byte :: more, ends)
      | none =>
        let (more, ends) := unescapeFrom withHex 0 rest
        (b :: more, ends)

def unescape (withHex : Bool) (text : Bytes) : Bytes × Bool := unescapeFrom withHex 0 text

/-- Several texts with spaces between them, each with its escapes replaced. -/
def unescapeAll (withHex : Bool) : List Bytes → Bytes × Bool
  | [] => ([], false)
  | [text] => unescape withHex text
  | text :: rest =>
    match unescape withHex text with
    | (here, true) => (here, true)
    | (here, false) =>
      let (more, ends) := unescapeAll withHex rest
      (here ++ space :: more, ends)

end PipeShell.Text
