import PipeShell.Text.Lines

/-!
# Lines and what is reported about them

A text is cut into lines, which are sorted by keys, told apart from their
neighbours or counted.  Sorting keeps the order of lines that its order does not tell apart,
so a sort that keeps one line of each kind keeps the first of them.
-/

set_option autoImplicit false

namespace PipeShell

/-- How the texts of keys are compared. -/
structure KeyOrder where
  /-- Keys go by the number at their head. -/
  numeric : Bool
  /-- Lower-case letters count as upper-case ones. -/
  folded : Bool
  /-- Only letters, digits and gaps count. -/
  dictionary : Bool
  /-- Only bytes with a glyph and spaces count. -/
  printable : Bool
  /-- Gaps at the head of the first field of a key do not belong to it. -/
  trimmed : Bool
  /-- The same for the last field. -/
  endTrimmed : Bool
  descending : Bool
  deriving DecidableEq

/-- The part of a line that it is sorted by: so many fields and then so many bytes are skipped
before it, and it ends behind a field, or behind so many bytes of the next. -/
structure SortKey where
  fields : Nat
  bytes : Nat
  lastField : Option Nat
  lastBytes : Nat
  order : KeyOrder
  deriving DecidableEq

/-- The order in which lines are sorted. -/
structure LineOrder where
  keys : List SortKey
  /-- Divides fields; without it a field begins with the gap before it. -/
  separator : Option UInt8
  descending : Bool
  /-- Lines whose keys are equal are not compared any further. -/
  stable : Bool
  deriving DecidableEq

/-- Which of the runs of equal lines are reported, and what counts of a line. -/
structure RunChoice where
  /-- Each with the number of its lines. -/
  counted : Bool
  /-- Only runs of several lines. -/
  repeated : Bool
  /-- Only runs of a single line. -/
  single : Bool
  /-- Lower-case letters count as upper-case ones. -/
  folded : Bool
  skippedFields : Nat
  skippedBytes : Nat
  width : Option Nat
  deriving DecidableEq

/-- What is reported about all that was read. -/
inductive Report where
  | sorted (order : LineOrder) (unique : Bool)
  | distinct (choice : RunChoice)
  deriving DecidableEq

/-- What is counted, and how wide the numbers are written. -/
structure Columns where
  lines : Bool
  words : Bool
  characters : Bool
  bytes : Bool
  longest : Bool
  width : Nat
  deriving DecidableEq

/-- Numbers of line ends, of words and of bytes, and the width of the longest line. -/
structure Tally where
  lines : Nat
  words : Nat
  bytes : Nat
  longest : Nat
  deriving DecidableEq

namespace Report

/-! ## Bytes -/

def isDigit (b : UInt8) : Bool := 48 ≤ b && b ≤ 57

def isGap (b : UInt8) : Bool := b = Text.space || b = 9

def isBlank (b : UInt8) : Bool := b = Text.space || (9 ≤ b && b ≤ 13)

def isGlyph (b : UInt8) : Bool := 33 ≤ b && b ≤ 126

def isUpper (b : UInt8) : Bool := 65 ≤ b && b ≤ 90

def isLower (b : UInt8) : Bool := 97 ≤ b && b ≤ 122

def isLetter (b : UInt8) : Bool := isUpper b || isLower b

def toUpper (b : UInt8) : UInt8 := if isLower b then b - 32 else b

/-- The number that decimal digits write. -/
def ofDigits (digits : Bytes) : Nat :=
  digits.foldl (fun n b => n * 10 + (b.toNat - 48)) 0

/-! ## Sorting -/

def compareBytes (a b : Bytes) : Ordering := compareOfLessAndEq a b

/-- The decimal number at the head of a line, as a whole number and how many of its digits stand
behind the point.  A line without one counts as zero. -/
def leadingNumber (line : Bytes) : Int × Nat :=
  let text := line.dropWhile isGap
  let negative := text.head? = some 45
  let text := if negative then text.drop 1 else text
  let whole := text.takeWhile isDigit
  let behind := match text.dropWhile isDigit with
    | 46 :: rest => rest.takeWhile isDigit
    | _ => []
  let size : Int := ofDigits (whole ++ behind)
  (if negative then -size else size, behind.length)

/-- The order of two decimal numbers, brought to the same number of digits. -/
def compareNumbers (a b : Int × Nat) : Ordering :=
  compare (a.1 * (Nat.pow 10 b.2 : Nat)) (b.1 * (Nat.pow 10 a.2 : Nat))

/-- What is left of a line behind a number of fields. -/
def skipFields (separator : Option UInt8) (line : Bytes) : Nat → Bytes
  | 0 => line
  | count + 1 =>
    let rest := match separator with
      | some mark => (line.dropWhile (· ≠ mark)).drop 1
      | none => (line.dropWhile isGap).dropWhile fun b => !isGap b
    skipFields separator rest count

/-- How much of a line comes before the end of a key. -/
def keyEnd (separator : Option UInt8) (key : SortKey) (line : Bytes) : Nat :=
  match key.lastField with
  | none => line.length
  | some field =>
    let rest := skipFields separator line field
    if key.lastBytes = 0 then
      let inside := match separator with
        | some mark => rest.takeWhile (· ≠ mark)
        | none =>
          let gap := rest.takeWhile isGap
          gap ++ (rest.drop gap.length).takeWhile fun b => !isGap b
      line.length - rest.length + inside.length
    else
      let rest := if key.order.endTrimmed then rest.dropWhile isGap else rest
      line.length - (rest.length - key.lastBytes)

def keyText (separator : Option UInt8) (key : SortKey) (line : Bytes) : Bytes :=
  let rest := skipFields separator line key.fields
  let rest := if key.order.trimmed then rest.dropWhile isGap else rest
  let rest := rest.drop key.bytes
  rest.take (keyEnd separator key line - (line.length - rest.length))

/-- What counts of the text of a key. -/
def significant (order : KeyOrder) (text : Bytes) : Bytes :=
  let text := if order.dictionary then
      text.filter fun b => isLetter b || isDigit b || isGap b
    else if order.printable then text.filter fun b => isGlyph b || b = Text.space
    else text
  if order.folded then text.map toUpper else text

def compareKey (separator : Option UInt8) (key : SortKey) (a b : Bytes) : Ordering :=
  let (a, b) := (keyText separator key a, keyText separator key b)
  let found := if key.order.numeric then compareNumbers (leadingNumber a) (leadingNumber b)
    else compareBytes (significant key.order a) (significant key.order b)
  if key.order.descending then found.swap else found

/-- Lines go by their keys, the first that tells them apart; where there is none, by all their
bytes. -/
def compareLines (order : LineOrder) (a b : Bytes) : Ordering :=
  let keys := order.keys.foldl (fun (found : Ordering) key =>
    found.then (compareKey order.separator key a b)) .eq
  let all := if order.descending then (compareBytes a b).swap else compareBytes a b
  if order.stable && order.keys ≠ [] then keys else keys.then all

def sortLines (order : LineOrder) (lines : List Bytes) : List Bytes :=
  lines.mergeSort fun a b => compareLines order a b != .gt

/-! ## Runs -/

/-- The lines that begin a run of lines that are alike, each with the length of its run. -/
def runs (alike : Bytes → Bytes → Bool) (lines : List Bytes) : List (Nat × Bytes) :=
  (lines.foldl (fun found line =>
    match found with
    | (n, first) :: more =>
      if alike first line then (n + 1, first) :: more else (1, line) :: found
    | [] => [(1, line)]) []).reverse

def padded (width : Nat) (n : Nat) : String :=
  let digits := toString n
  "".pushn ' ' (width - digits.length) ++ digits

/-- What counts of a line. -/
def runKey (choice : RunChoice) (line : Bytes) : Bytes :=
  let rest := (skipFields none line choice.skippedFields).drop choice.skippedBytes
  let rest := (choice.width.map fun width => rest.take width).getD rest
  if choice.folded then rest.map toUpper else rest

/-- The lines of a report on runs. -/
def runLines (choice : RunChoice) (lines : List Bytes) : List Bytes :=
  let found := runs (fun a b => runKey choice a = runKey choice b) lines
  let chosen := found.filter fun (n, _) =>
    (!choice.repeated || 1 < n) && (!choice.single || n = 1)
  chosen.map fun (n, line) =>
    if choice.counted then Text.encode (padded 7 n ++ " ") ++ line else line

/-- What a report says about a text. -/
def write (report : Report) (data : ByteArray) : ByteArray :=
  match report with
  | .sorted order unique =>
    let lines := sortLines order (Text.linesOf data)
    let alike := fun a b => compareLines order a b == .eq
    Text.unlines (if unique then (runs alike lines).map Prod.snd else lines)
  | .distinct choice => Text.unlines (runLines choice (Text.linesOf data))

end Report

namespace Tally

def none : Tally := { lines := 0, words := 0, bytes := 0, longest := 0 }

/-- The width of a line after one more byte. -/
def advance (width : Nat) (b : UInt8) : Nat :=
  if b = 9 then width + 8 - width % 8
  else if b = Text.space || Report.isGlyph b then width + 1
  else width

/-- Starts a line anew. -/
def isReturn (b : UInt8) : Bool := b = Text.newline || b = 12 || b = 13

/-- Counts a text.  A word begins with a glyph and ends with a blank. -/
def ofData (data : ByteArray) : Tally :=
  let (lines, words, _) := data.foldl (fun (lines, words, inWord) b =>
    let begins := !inWord && Report.isGlyph b
    (if b = Text.newline then lines + 1 else lines,
      if begins then words + 1 else words,
      begins || (inWord && !Report.isBlank b))) (0, 0, false)
  let (longest, last) := data.foldl (fun (longest, width) b =>
    if isReturn b then (max longest width, 0) else (longest, advance width b)) (0, 0)
  { lines, words, bytes := data.size, longest := max longest last }

def add (a b : Tally) : Tally :=
  { lines := a.lines + b.lines, words := a.words + b.words, bytes := a.bytes + b.bytes
    longest := max a.longest b.longest }

/-- A line of counts. -/
def write (columns : Columns) (t : Tally) (name : Option Bytes) : ByteArray :=
  let numbers := [(columns.lines, t.lines), (columns.words, t.words),
    (columns.characters, t.bytes), (columns.bytes, t.bytes), (columns.longest, t.longest)]
  let shown := (numbers.filter Prod.fst).map fun (_, n) => Report.padded columns.width n
  Text.unlines [Text.encode (" ".intercalate shown) ++ name.elim [] (Text.space :: ·)]

end Tally

end PipeShell
