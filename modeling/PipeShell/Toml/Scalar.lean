import PipeShell.Toml.Quoted

/-!
# Numbers and dates as they are read

The settings use neither, but a settings file may hold them under other names,
so they have to be well formed.  Of a date the text is kept.
-/

set_option autoImplicit false

namespace PipeShell.Toml.Reader

/-! ## Numbers -/

/-- Digits that single underscores may part. -/
def digits (accept : Char → Bool) : Reader (List Char) := do
  let first ← satisfying accept
  let rest ← many (satisfying accept <|> (do
    char '_'
    satisfying accept))
  return first :: rest

def sign : Reader Bool :=
  (do
    char '-'
    return true) <|> (do
    let _ ← optional (char '+')
    return false)

/-- Decimal digits without a leading zero. -/
def wholeDigits : Reader (List Char) := do
  let first ← satisfying Char.isDigit
  if first = '0' then return ['0']
  else
    let rest ← many (satisfying Char.isDigit <|> (do
      char '_'
      satisfying Char.isDigit))
    return first :: rest

def integerLimit : Nat := Nat.pow 2 63

/-- A number with a mark for its base. -/
def basedInteger (mark : Char) (base : Nat) (accept : Char → Bool) : Reader Unit := do
  chars ['0', mark]
  let text ← digits accept
  guard (numeral base text < integerLimit)

def integer : Reader Unit :=
  basedInteger 'x' 16 isHexDigit
    <|> basedInteger 'o' 8 (fun c => '0' ≤ c && c ≤ '7')
    <|> basedInteger 'b' 2 (fun c => c = '0' || c = '1')
    <|> do
      let negative ← sign
      let text ← wholeDigits
      let size := numeral 10 text
      guard (size < integerLimit || (negative && size = integerLimit))

/-- The least size that a double-precision number does not reach. -/
def floatLimit : Nat := Nat.pow 2 1024 - Nat.pow 2 970

/-- `mantissa` times ten to the power `exponent` is below the limit of double precision. -/
def isFinite (mantissa : Nat) (exponent : Int) : Bool :=
  if mantissa = 0 then true
  else match exponent with
    | .ofNat n => n ≤ 400 && mantissa * Nat.pow 10 n < floatLimit
    | .negSucc n => mantissa / Nat.pow 10 (min (n + 1) (mantissa.log2 + 1)) < floatLimit

def fraction : Reader (List Char) := do
  char '.'
  digits Char.isDigit

def exponent : Reader Int := do
  char 'e' <|> char 'E'
  let negative ← sign
  let text ← digits Char.isDigit
  let size : Int := numeral 10 text
  return if negative then -size else size

/-- A number with a fraction or an exponent.  Only a negative one may be too large. -/
def decimal : Reader Unit := do
  let negative ← sign
  let whole ← wholeDigits
  let part ← optional fraction
  let power ← if part.isSome then optional exponent else some <$> exponent
  let behind := part.getD []
  guard (negative || isFinite (numeral 10 (whole ++ behind)) (power.getD 0 - behind.length))

def specialNumber : Reader Unit := do
  let _ ← sign
  chars ['i', 'n', 'f'] <|> chars ['n', 'a', 'n']

def truth : Reader Unit :=
  chars "true".toList <|> chars "false".toList

/-! ## Dates -/

/-- A number of two digits in a range. -/
def twoDigits (low high : Nat) : Reader (List Char) := do
  let text ← exactly 2 Char.isDigit
  let n := numeral 10 text
  guard (low ≤ n && n ≤ high)
  return text

def isLeap (year : Nat) : Bool :=
  year % 4 = 0 && (year % 100 ≠ 0 || year % 400 = 0)

def daysIn (year month : Nat) : Nat :=
  if month = 2 then if isLeap year then 29 else 28
  else if month = 4 || month = 6 || month = 9 || month = 11 then 30
  else 31

def date : Reader (List Char) := do
  let year ← exactly 4 Char.isDigit
  char '-'
  let month ← twoDigits 1 12
  char '-'
  let day ← twoDigits 1 (daysIn (numeral 10 year) (numeral 10 month))
  return year ++ ['-'] ++ month ++ ['-'] ++ day

/-- Parts of a second, as nine digits at most and without zeros at the end. -/
def secondPart : Reader (List Char) := do
  char '.'
  let first ← satisfying Char.isDigit
  let rest ← span Char.isDigit
  match (((first :: rest).take 9).reverse.dropWhile (· = '0')).reverse with
  | [] => return []
  | shown => return '.' :: shown

def time : Reader (List Char) := do
  let hour ← twoDigits 0 23
  char ':'
  let minute ← twoDigits 0 59
  char ':'
  let second ← twoDigits 0 60
  let part ← optional secondPart
  return hour ++ [':'] ++ minute ++ [':'] ++ second ++ part.getD []

/-- The distance from universal time. -/
def offset : Reader (List Char) :=
  (do
    char 'Z' <|> char 'z'
    return ['Z']) <|> (do
    let direction ← satisfying fun c => c = '+' || c = '-'
    let hour ← twoDigits 0 23
    char ':'
    let minute ← twoDigits 0 59
    return [direction] ++ hour ++ [':'] ++ minute)

/-- The time behind a date. -/
def timeOfDay : Reader (List Char) := do
  let _ ← satisfying fun c => c = 'T' || c = 't' || c = ' '
  let clock ← time
  let distance ← optional offset
  return 'T' :: (clock ++ distance.getD [])

/-- A date, a time, or a date with a time, in the one form in which each is written. -/
def moment : Reader String :=
  (do
    let day ← date
    let clock ← optional timeOfDay
    return String.ofList (day ++ clock.getD [])) <|> String.ofList <$> time

end PipeShell.Toml.Reader
