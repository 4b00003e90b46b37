import PipeShell.Program.Arguments

/-!
# Sets of bytes

Two sets say which bytes are exchanged for which.  A set lists bytes one by one,
as a range, as a class with a name or as a byte that is repeated.  `elements?`
reads the text of a set and `Exchange.table?` makes the table of all
replacements, or says why the two sets do not go together.
-/

set_option autoImplicit false

namespace PipeShell

inductive SetElement where
  | byte (b : UInt8)
  | range (low high : UInt8)
  | named (name : String)
  /-- All bytes that count the same as this one. -/
  | alike (b : UInt8)
  /-- The byte so many times, or as often as it takes. -/
  | repeated (b : UInt8) (count : Option Nat)
  deriving DecidableEq, Repr

namespace SetElement

def allBytes : Bytes := (List.range 256).map Nat.toUInt8

/-- The classes with the bytes that belong to them. -/
def classes : List (String × (UInt8 → Bool)) :=
  let isGraph := fun (b : UInt8) => Report.isGlyph b
  let isAlnum := fun (b : UInt8) => Report.isLetter b || Report.isDigit b
  [("alnum", isAlnum), ("alpha", Report.isLetter), ("blank", Report.isGap),
    ("cntrl", fun b => b < 32 || b = 127), ("digit", Report.isDigit), ("graph", isGraph),
    ("lower", Report.isLower), ("print", fun b => isGraph b || b = Text.space),
    ("punct", fun b => isGraph b && !isAlnum b), ("space", Report.isBlank),
    ("upper", Report.isUpper),
    ("xdigit", fun b => Report.isDigit b || (65 ≤ b && b ≤ 70) || (97 ≤ b && b ≤ 102))]

/-- The bytes of an element, in their order. -/
def bytes : SetElement → Bytes
  | byte b => [b]
  | range low high => allBytes.filter fun b => low ≤ b && b ≤ high
  | named name => allBytes.filter ((classes.lookup name).getD fun _ => false)
  | alike b => [b]
  | repeated b count => List.replicate (count.getD 0) b

/-- Upper-case or lower-case letters, which can be exchanged for each other. -/
def isCase : SetElement → Bool
  | named name => name = "upper" || name = "lower"
  | _ => false

def isNamed : SetElement → Bool
  | named _ => true
  | _ => false

/-- Repeated as often as it takes. -/
def isOpen : SetElement → Bool
  | repeated _ none => true
  | _ => false

def isAlike : SetElement → Bool
  | alike _ => true
  | _ => false

/-! ## Reading -/

/-- A byte of a set, and whether a backslash stood before it. -/
abbrev Mark := UInt8 × Bool

/-- The bytes that a text writes, escapes replaced; some bytes are skipped first. -/
def marksFrom : Nat → Bytes → List Mark
  | _, [] => []
  | skipped + 1, _ :: rest => marksFrom skipped rest
  | 0, b :: rest =>
    if b ≠ 92 then (b, false) :: marksFrom 0 rest
    else match rest with
      | [] => [(92, false)]
      | letter :: _ =>
        let isOctal := fun (d : UInt8) => 48 ≤ d && d ≤ 55
        let digits := (rest.take 3).takeWhile isOctal
        let value := fun (digits : Bytes) => digits.foldl (fun n d => n * 8 + (d.toNat - 48)) 0
        let digits := if value digits < 256 then digits else digits.take 2
        if digits ≠ [] then ((value digits).toUInt8, true) :: marksFrom digits.length rest
        else
          match (Text.encode "abtnvfr").findIdx? (· = letter) with
          | some i => ((7 + i).toUInt8, true) :: marksFrom 1 rest
          | none => (letter, true) :: marksFrom 1 rest

/-- The text ends in a backslash that escapes nothing. -/
def endsInEscape (text : Bytes) : Bool :=
  (text.reverse.takeWhile (· = 92)).length % 2 = 1

def plain (c : Char) : Mark := (c.toNat.toUInt8, false)

/-- What stands before the closing pair of marks, if that follows. -/
def closed? (mark : Char) : List Mark → Option Bytes
  | [] => none
  | [_] => none
  | a :: b :: rest =>
    if a = plain mark && b = plain ']' then some []
    else (closed? mark (b :: rest)).map (a.1 :: ·)

/-- The count of a repetition that stands before the closing bracket: octal if it begins with a
zero, and as often as it takes if it is zero or nothing. -/
def count? (digits : Bytes) : Option (Option Nat) :=
  let base := if digits.head? = some 48 then 8 else 10
  if digits.all fun d => Report.isDigit d && d.toNat - 48 < base then
    match digits.foldl (fun n d => n * base + (d.toNat - 48)) 0 with
    | 0 => some none
    | n => some (some n)
  else none

inductive SetFault where
  | noClassName
  | noClassByte
  | unknownClass (name : Bytes)
  | severalBytes (text : Bytes)
  | reversed (low high : UInt8)
  | badCount (text : Bytes)
  deriving DecidableEq

/-- A repetition behind an opening bracket, and how many marks it takes. -/
def repetition? : List Mark → Option (Except SetFault (SetElement × Nat))
  | c :: star :: rest =>
    if star ≠ plain '*' then none
    else
      let digits := rest.takeWhile fun mark => mark ≠ plain ']'
      if digits.length = rest.length then none
      else match count? (digits.map Prod.fst) with
        | some count => some (.ok (repeated c.1 count, digits.length + 3))
        | none => some (.error (.badCount (digits.map Prod.fst)))
  | _ => none

/-- What an opening bracket begins, and how many marks behind the bracket it takes. -/
def bracketed? (rest : List Mark) : Option (Except SetFault (SetElement × Nat)) :=
  let orRepetition := fun (fault : SetFault) =>
    match rest with
    | _ :: star :: more =>
      let digits := more.takeWhile fun mark => Report.isDigit mark.1
      if star = plain '*' && (more.drop digits.length).head? = some (plain ']') then
        repetition? rest
      else some (.error fault)
    | _ => some (.error fault)
  match rest with
  | [] => none
  | mark :: more =>
    if mark = plain ':' then
      match closed? ':' more with
      | none => repetition? rest
      | some [] => some (.error .noClassName)
      | some name =>
        let text := Text.decodeLossy name
        if (classes.lookup text).isSome then some (.ok (named text, name.length + 3))
        else orRepetition (.unknownClass name)
    else if mark = plain '=' then
      match closed? '=' more with
      | none => repetition? rest
      | some [] => some (.error .noClassByte)
      | some [b] => some (.ok (alike b, 4))
      | some text => orRepetition (.severalBytes text)
    else repetition? rest

/-- The elements of a set; some marks are skipped first. -/
def elementsFrom : Nat → List Mark → Except SetFault (List SetElement)
  | _, [] => .ok []
  | skipped + 1, _ :: rest => elementsFrom skipped rest
  | 0, c :: rest =>
    let single := fun (_ : Unit) =>
      match rest with
      | dash :: high :: _ =>
        if dash ≠ plain '-' then (elementsFrom 0 rest).map (byte c.1 :: ·)
        else if high.1 < c.1 then .error (.reversed c.1 high.1)
        else (elementsFrom 2 rest).map (range c.1 high.1 :: ·)
      | _ => (elementsFrom 0 rest).map (byte c.1 :: ·)
    if c = plain '[' && 1 < rest.length then
      match bracketed? rest with
      | none => single ()
      | some (.error fault) => .error fault
      | some (.ok (element, taken)) => (elementsFrom taken rest).map (element :: ·)
    else single ()

def elements (text : Bytes) : Except SetFault (List SetElement) :=
  elementsFrom 0 (marksFrom 0 text)

end SetElement

/-- A byte as it is shown in a complaint. -/
def shownByte (b : UInt8) : String :=
  if Report.isGlyph b || b = Text.space then String.singleton (Char.ofNat b.toNat)
  else
    let digit := fun (n : Nat) => Char.ofNat (48 + n % 8)
    String.ofList ['\\', digit (b.toNat / 64), digit (b.toNat / 8), digit b.toNat]

def SetElement.SetFault.explanation : SetElement.SetFault → String
  | noClassName => "missing character class name '[::]'"
  | noClassByte => "missing equivalence class character '[==]'"
  | unknownClass name => s!"invalid character class '{String.join (name.map shownByte)}'"
  | severalBytes text =>
    s!"{String.join (text.map shownByte)}: equivalence class operand must be a single character"
  | reversed low high =>
    s!"range-endpoints of '{shownByte low}-{shownByte high}' " ++
      "are in reverse collating sequence order"
  | badCount text =>
    s!"invalid repeat count '{String.join (text.map shownByte)}' in [c*n] construct"

/-- How bytes are exchanged for others. -/
structure Exchange where
  /-- Every byte has its replacement here, or is dropped. -/
  table : Array (Option UInt8)
  /-- Bytes that are given once where they come one after the other. -/
  squeezed : Array Bool
  /-- The byte given last. -/
  last : Option UInt8

/-- What is asked of an exchange. -/
structure ExchangeWish where
  /-- The first set stands for all bytes that are not in it. -/
  complemented : Bool
  deletes : Bool
  squeezes : Bool
  /-- The first set is cut to the length of the second. -/
  truncates : Bool
  deriving DecidableEq

namespace Exchange

/-- Every byte but those of a set. -/
def without (source : Bytes) : Array (Option UInt8) :=
  (Array.range 256).map fun code =>
    if source.contains code.toUInt8 then none else some code.toUInt8

def members (set : Bytes) : Array Bool :=
  (Array.range 256).map fun code => set.contains code.toUInt8

/-- Every byte with the byte at the same place of the second list; the last place counts. -/
def replacements (source target : Bytes) : Array (Option UInt8) :=
  (Array.range 256).map fun code =>
    let b := code.toUInt8
    match (source.zip target).reverse.find? fun pair => pair.1 = b with
    | none => some b
    | some (_, replacement) => some replacement

/-- The second set with what is missing to a length: where a byte is repeated as often as it takes,
or at the end. -/
def extend (length : Nat) (elements : List SetElement) : Bytes :=
  let missing := length - (elements.flatMap SetElement.bytes).length
  if elements.any SetElement.isOpen then
    elements.flatMap fun element =>
      match element with
      | .repeated b none => List.replicate missing b
      | element => element.bytes
  else
    let listed := elements.flatMap SetElement.bytes
    listed ++ List.replicate missing (listed.getLast?.getD 0)

/-- Letters of one case stand in the second set only where letters of one case begin in the first:
the elements still to be compared, each with how many of its bytes have a partner. -/
def casesMatch : Nat → List SetElement → List SetElement → Bool
  | 0, _, _ => true
  | _, [], _ => true
  | _, _, [] => true
  | fuel + 1, a :: source, b :: target =>
    if b.isCase then a.isCase && casesMatch fuel source target
    else
      let common := min a.bytes.length b.bytes.length
      let left := fun (element : SetElement) =>
        (element.bytes.drop common).map SetElement.byte
      casesMatch fuel (left a ++ source) (left b ++ target)

/-- How many bytes a set lists, letters of one case counted once. -/
def caseLength (elements : List SetElement) : Nat :=
  (elements.map fun element => if element.isCase then 1 else element.bytes.length).foldl Nat.add 0

/-- Why the two sets cannot be translated into each other, if they cannot. -/
def translationFault? (wish : ExchangeWish) (source target : List SetElement) : Option String :=
  let listed := source.flatMap SetElement.bytes
  let cased := !wish.complemented && target.any SetElement.isNamed
  let sourceLength := if wish.complemented then 256 - listed.eraseDups.length
    else if cased then caseLength source else listed.length
  let targetLength := if cased then caseLength target
    else (target.flatMap SetElement.bytes).length
  if target.any SetElement.isAlike then
    some "[=c=] expressions may not appear in string2 when translating"
  else if target.any fun element => element.isNamed && !element.isCase then
    some ("when translating, the only character classes that may appear in\n" ++
      "string2 are 'upper' and 'lower'")
  else if cased && !casesMatch 4096 source target then
    some "misaligned [:upper:] and/or [:lower:] construct"
  else if targetLength < sourceLength && !wish.truncates && !target.any SetElement.isOpen then
    if target = [] then some "when not truncating set1, string2 must be non-empty"
    else if (target.getLast?.map SetElement.isNamed).getD false then
      some ("when translating with string1 longer than string2,\n" ++
        "the latter string must not end with a character class")
    else none
  else none

/-- The bytes that the first set stands for. -/
def sourceBytes (wish : ExchangeWish) (source : List SetElement) : Bytes :=
  let listed := source.flatMap SetElement.bytes
  if wish.complemented then SetElement.allBytes.filter fun b => !listed.contains b else listed

/-- The exchange of a single set: its bytes are dropped, or given once. -/
def ofSet (wish : ExchangeWish) (source : List SetElement) : Exchange :=
  let listed := sourceBytes wish source
  if wish.deletes then { table := without listed, squeezed := members [], last := none }
  else { table := without [], squeezed := members listed, last := none }

/-- The exchange that two sets describe, or why they do not describe one. -/
def ofSets (wish : ExchangeWish) (source target : List SetElement) : Except String Exchange :=
  let listed := sourceBytes wish source
  if 1 < (target.filter SetElement.isOpen).length then
    .error "only one [c*] repeat construct may appear in string2"
  else if wish.deletes then
    if target.any SetElement.isOpen then
      .error "the [c*] construct may appear in string2 only when translating"
    else
      let squeezed := members (target.flatMap SetElement.bytes)
      .ok { table := without listed, squeezed, last := none }
  else match translationFault? wish source target with
    | some text => .error text
    | none =>
      let partners :=
        if wish.truncates && !target.any SetElement.isOpen then target.flatMap SetElement.bytes
        else extend listed.length target
      let isUniform := partners.eraseDups.length ≤ 1 && partners.length = listed.length
      if wish.complemented && source.any SetElement.isNamed && !isUniform then
        .error ("when translating with complemented character classes,\n" ++
          "string2 must map all characters in the domain to one")
      else
        let squeezed := members (if wish.squeezes then partners else [])
        .ok { table := replacements listed partners, squeezed, last := none }

/-- The exchange of one set or of two. -/
def ofWish (wish : ExchangeWish) (source : List SetElement) (target : Option (List SetElement)) :
    Except String Exchange :=
  if source.any SetElement.isOpen then
    .error "the [c*] repeat construct may not appear in string1"
  else match target with
    | none => .ok (ofSet wish source)
    | some target => ofSets wish source target

/-- Exchanges one byte after the other. -/
def apply (e : Exchange) (data : ByteArray) : Exchange × ByteArray :=
  let (last, out) := data.foldl (fun (last, out) b =>
    match (e.table[b.toNat]?).join with
    | none => (last, out)
    | some b =>
      if last = some b && e.squeezed.getD b.toNat false then (last, out)
      else (some b, out.push b)) (e.last, .empty)
  ({ e with last }, out)

end Exchange

end PipeShell
