import PipeShell.Program.Arguments
import PipeShell.Program.Quotation
import PipeShell.Program.Task
import PipeShell.Text.Backslash

/-!
# The installed programs

What each program does first, by its arguments: it complains about them, says
what it has to say, or becomes a filter over its operands.
-/

set_option autoImplicit false

namespace PipeShell

/-- What is known of the size of an input before it is read. -/
inductive Extent where
  | missing (cause : Errno)
  /-- There is something, but no file with a size. -/
  | unsized
  | sized (bytes : Nat)
  deriving DecidableEq

/-- How a program was called. -/
structure Call where
  /-- What it was called by. -/
  name : String
  arguments : List Bytes
  /-- The time. -/
  now : Nat
  /-- What is known of the size of an operand, or of standard input. -/
  extentOf : Option Bytes → Extent

namespace Call

/-- Complains in the name of the program and exits. -/
def fail (c : Call) (text : String) (code : Int) : Task :=
  Task.complain s!"{c.name}: {text}\n" code

/-- Where a program sends a user who got its arguments wrong. -/
def hint (c : Call) : String :=
  s!"Try '{c.name} --help' for more information.\n"

/-- Complains about the arguments and exits. -/
def misused (c : Call) (text : String) (code : Int) : Task :=
  Task.complain (s!"{c.name}: {text}\n" ++ c.hint) code

/-- Goes on with the arguments sorted out, if there is nothing wrong with them. -/
def withArguments (c : Call) (table : OptionTable) (code : Int) (next : Arguments → Task) : Task :=
  let a := Arguments.read table c.arguments
  match a.fault with
  | some fault => c.misused fault.explanation code
  | none => next a

end Call

namespace Installed

/-- The inputs that operands name: standard input when there are none. -/
def inputsOf (operands : List Bytes) : List (Option Bytes) :=
  if operands = [] then [none] else operands.map some

/-- Runs a filter over the operands, or over standard input when there are none. -/
def filterAll (f : Filter) (operands : List Bytes) : Task :=
  .filter f none (inputsOf operands) 0

/-! ## Words and lines -/

/-- The flags at the head of the arguments of `echo`, and the arguments behind them. -/
def echoFlags (newline escapes : Bool) : List Bytes → Bool × Bool × List Bytes
  | [] => (newline, escapes, [])
  | argument :: rest =>
    match Script.ofBytes argument with
    | '-' :: c :: letters =>
      if (c :: letters).all fun c => c = 'n' || c = 'e' || c = 'E' then
        let escapes := (c :: letters).foldl (fun escapes c =>
          if c = 'e' then true else if c = 'E' then false else escapes) escapes
        echoFlags (newline && !(c :: letters).contains 'n') escapes rest
      else (newline, escapes, argument :: rest)
    | _ => (newline, escapes, argument :: rest)

def echo (c : Call) : Task :=
  let (newline, escapes, words) := echoFlags true false c.arguments
  let (text, ends) := if escapes then Text.unescapeAll true words
    else ([Text.space].intercalate words, false)
  let line := if newline && !ends then text ++ [Text.newline] else text
  Task.print "echo" c.name (Text.packed line) (Task.exit 0)

/-- A line again and again, as many times as make up a good piece. -/
def yes (c : Call) : Task :=
  c.withArguments ⟨"", "", []⟩ 1 fun a =>
    let text := if a.operands = [] then [121] else [Text.space].intercalate a.operands
    let line := Text.packed (text ++ [Text.newline])
    .repeating ((List.range (8192 / line.size + 1)).foldl (fun data _ => data ++ line) .empty)

def cat (c : Call) : Task :=
  let table : OptionTable := {
    plain := "benstuvAET", valued := ""
    long := [("number-nonblank", 'b'), ("number", 'n'), ("squeeze-blank", 's'),
      ("show-nonprinting", 'v'), ("show-ends", 'E'), ("show-tabs", 'T'), ("show-all", 'A')] }
  c.withArguments table 1 fun a =>
    let listing : Listing := {
      numbered := a.has 'n' || a.has 'b', skipsEmpty := a.has 'b', squeezed := a.has 's'
      showsEnds := a.has 'E' || a.has 'e' || a.has 'A'
      showsTabs := a.has 'T' || a.has 't' || a.has 'A'
      showsOthers := a.has 'v' || a.has 'e' || a.has 't' || a.has 'A' }
    let isPlain := a.options.all fun option => option.1 = 'u'
    let state : ListingState := { next := 1, insideLine := false, emptyLines := 0 }
    filterAll (if isPlain then .copy else .list listing state) a.operands

/-! ## The first lines -/

/-- Amounts are below this. -/
def amountLimit : Nat := Nat.pow 2 64

/-- The share of its inputs that `head` is asked for: ten lines if nothing is said. -/
def shareOf (a : Arguments) : Except String Share :=
  let read := fun (inBytes : Bool) (value : Bytes) =>
    let fromEnd := value.head? = some 45
    let unsigned := if fromEnd || value.head? = some 43 then value.drop 1 else value
    let refuse := fun (reason : String) =>
      let unit := if inBytes then "bytes" else "lines"
      let shown := if fromEnd then value.drop 1 else value
      Except.error s!"invalid number of {unit}: {Quotation.inWords shown}{reason}"
    match amount? unsigned with
    | some amount =>
      if amount < amountLimit then .ok { inBytes, amount, fromEnd }
      else refuse ": Value too large for defined data type"
    | none => refuse ""
  match a.last? "cn" with
  | some (letter, value) => read (letter = 'c') value
  | none => .ok { inBytes := false, amount := 10, fromEnd := false }

/-- Whether inputs get titles: where there are several, unless the options say otherwise. -/
def titlesOf (a : Arguments) : Titles :=
  let wanted : Bool := match a.last? "qv" with
    | some (letter, _) => letter = 'v'
    | none => 1 < a.operands.length
  if wanted then .yes true else .no

/-- The options that letters behind a number stand for, such as those of `5c`, or the letter that
stands for none. -/
def countOptions (digits : List Char) : List Char → Except Char (List Bytes)
  | [] => .ok [Text.encode "-n", Script.toBytes digits]
  | 'c' :: rest =>
    (countOptions digits rest).map fun _ => [Text.encode "-c", Script.toBytes digits]
  | 'l' :: rest => countOptions digits rest
  | 'q' :: rest => (countOptions digits rest).map (· ++ [Text.encode "-q"])
  | 'v' :: rest => (countOptions digits rest).map (· ++ [Text.encode "-v"])
  | unit :: rest =>
    if unit = 'b' || unit = 'k' || unit = 'm' then
      (countOptions digits rest).map fun _ =>
        [Text.encode "-c", Script.toBytes (digits ++ [unit])]
    else .error unit

/-- The arguments with a number of lines at their head written as an option. -/
def countFirst (arguments : List Bytes) : Except Char (List Bytes) :=
  match arguments with
  | first :: rest =>
    match Script.ofBytes first with
    | '-' :: text =>
      let digits := text.takeWhile Char.isDigit
      if digits = [] then .ok arguments
      else (countOptions digits (text.drop digits.length)).map (· ++ rest)
    | _ => .ok arguments
  | [] => .ok []

def head (c : Call) : Task :=
  let table : OptionTable := {
    plain := "qv", valued := "cn"
    long := [("bytes", 'c'), ("lines", 'n'), ("quiet", 'q'), ("silent", 'q'), ("verbose", 'v')] }
  let trailing := fun (letter : Char) => c.misused s!"invalid trailing option -- {letter}" 1
  match countFirst c.arguments with
  | .error letter => trailing letter
  | .ok arguments =>
    let a := Arguments.read table arguments
    match a.fault, shareOf a with
    | some (.unknownLetter letter), _ =>
      if letter.isDigit then trailing letter
      else c.misused (OptionFault.unknownLetter letter).explanation 1
    | some fault, _ => c.misused fault.explanation 1
    | none, .error text => c.fail text 1
    | none, .ok share => filterAll (.share share (titlesOf a) 0 .empty) a.operands

/-! ## Sorting -/

/-- The order that letters ask for. -/
def keyOrder (start ending : List Char) : KeyOrder :=
  let has := fun (c : Char) => start.contains c || ending.contains c
  { numeric := has 'n', folded := has 'f', dictionary := has 'd', printable := has 'i'
    trimmed := start.contains 'b', endTrimmed := ending.contains 'b', descending := has 'r' }

/-- A number at the head of the description of a key. -/
def keyNumber (purpose : String) (text : Bytes) : Except String (Nat × Bytes) :=
  let digits := text.takeWhile Report.isDigit
  match number? digits with
  | some n => .ok (n, text.drop digits.length)
  | none => .error s!"{purpose}: invalid count at start of {Quotation.inWords text}"

/-- A number behind a point, if there is one. -/
def keyOffset (text : Bytes) : Except String (Option Nat × Bytes) :=
  match text with
  | 46 :: rest => (keyNumber "invalid number after '.'" rest).map fun (n, rest) => (some n, rest)
  | _ => .ok (none, text)

/-- The letters at the head of a text that ask for an order. -/
def keyLetters (text : Bytes) : List Char × Bytes :=
  let letters := (Script.ofBytes text).takeWhile fun c => "bdfinr".toList.contains c
  (letters, text.drop letters.length)

/-- The key that a description such as `2,3n` stands for.  Without letters of its own it has the
order of all lines. -/
def sortKey (common : KeyOrder) (text : Bytes) : Except String SortKey := do
  let refuse := fun (reason : String) =>
    (.error s!"{reason}: invalid field specification {Quotation.inWords text}" :
      Except String SortKey)
  let (field, rest) ← keyNumber "invalid number at field start" text
  let (offset, rest) ← keyOffset rest
  let (start, rest) := keyLetters rest
  if field = 0 then refuse "field number is zero"
  else if offset = some 0 then refuse "character offset is zero"
  else
    let order := fun (ending : List Char) =>
      if start = [] && ending = [] then common else keyOrder start ending
    match rest with
    | [] =>
      .ok { fields := field - 1, bytes := offset.getD 1 - 1, lastField := none, lastBytes := 0
            order := order [] }
    | 44 :: rest =>
      let (last, rest) ← keyNumber "invalid number after ','" rest
      let (lastOffset, rest) ← keyOffset rest
      let (ending, rest) := keyLetters rest
      if last = 0 then refuse "field number is zero"
      else if rest ≠ [] then refuse "stray character in field spec"
      else
        .ok { fields := field - 1, bytes := offset.getD 1 - 1, lastField := some (last - 1)
              lastBytes := lastOffset.getD 0, order := order ending }
    | _ => refuse "stray character in field spec"

/-- The byte that divides fields. -/
def separatorOf (a : Arguments) : Except String (Option UInt8) :=
  match a.value? 't' with
  | none => .ok none
  | some [] => .error "empty tab"
  | some [b] => .ok (some b)
  | some text =>
    if text = Text.encode "\\0" then .ok (some 0)
    else .error s!"multi-character tab {Quotation.inWords text}"

/-- The order that the options of `sort` ask for. -/
def lineOrder (a : Arguments) : Except String LineOrder := do
  let letters := (a.options.map Prod.fst).filter fun c => "bdfinr".toList.contains c
  let common := keyOrder letters letters
  let described := (a.options.filter fun option => option.1 = 'k').map Prod.snd
  let keys ← described.mapM (sortKey common)
  let separator ← separatorOf a
  let whole : SortKey :=
    { fields := 0, bytes := 0, lastField := none, lastBytes := 0, order := common }
  let keys := if keys = [] && letters.any (· ≠ 'r') then [whole] else keys
  if common.numeric && (common.dictionary || common.printable) then
    let others := (if common.dictionary then "d" else "") ++ (if common.folded then "f" else "") ++
      (if common.dictionary then "" else "i")
    .error s!"options '-{others}n' are incompatible"
  else
    .ok { keys, separator, descending := common.descending, stable := a.has 's' || a.has 'u' }

def sort (c : Call) : Task :=
  let table : OptionTable := {
    plain := "bdfimnrsu", valued := "kot"
    long := [("ignore-leading-blanks", 'b'), ("dictionary-order", 'd'), ("ignore-case", 'f'),
      ("ignore-nonprinting", 'i'), ("key", 'k'), ("merge", 'm'), ("numeric-sort", 'n'),
      ("output", 'o'), ("reverse", 'r'), ("stable", 's'), ("field-separator", 't'),
      ("unique", 'u')] }
  c.withArguments table 2 fun a =>
    let unreadable := a.operands.findSome? fun operand =>
      match c.extentOf (some operand) with
      | .missing cause => if operand = [45] then none else some (operand, cause)
      | _ => none
    match lineOrder a, unreadable with
    | .error text, _ => c.fail text 2
    | .ok _, some (operand, cause) =>
      c.fail s!"cannot read: {Quotation.asNeeded operand}: {cause.description}" 2
    | .ok order, none =>
      let target := a.value? 'o'
      let run := filterAll (.gather (.sorted order (a.has 'u')) target .empty) a.operands
      (target.map fun path => Task.claim path run).getD run

/-! ## Neighbours -/

/-- The number given for an option, or what is wrong with it. -/
def numberOf (a : Arguments) (letter : Char) (purpose : String) : Except String (Option Nat) :=
  match a.value? letter with
  | none => .ok none
  | some text =>
    match number? text with
    | some n => .ok (some n)
    | none => .error s!"{Text.decodeLossy text}: {purpose}"

def runChoice (a : Arguments) : Except String RunChoice := do
  let fields ← numberOf a 'f' "invalid number of fields to skip"
  let bytes ← numberOf a 's' "invalid number of bytes to skip"
  let width ← numberOf a 'w' "invalid number of bytes to compare"
  .ok {
    counted := a.has 'c', repeated := a.has 'd', single := a.has 'u', folded := a.has 'i'
    skippedFields := fields.getD 0, skippedBytes := bytes.getD 0, width }

def uniq (c : Call) : Task :=
  let table : OptionTable := {
    plain := "cdiu", valued := "fsw"
    long := [("count", 'c'), ("repeated", 'd'), ("ignore-case", 'i'), ("unique", 'u'),
      ("skip-fields", 'f'), ("skip-chars", 's'), ("check-chars", 'w')] }
  c.withArguments table 1 fun a =>
    match runChoice a, a.operands with
    | .error text, _ => c.fail text 1
    | .ok _, _ :: _ :: extra :: _ => c.misused s!"extra operand {Quotation.inWords extra}" 1
    | .ok choice, [source, target] =>
      let run := filterAll (.gather (.distinct choice) none .empty) [source]
      if target = [45] then run else .divert target run
    | .ok choice, operands => filterAll (.gather (.distinct choice) none .empty) operands

/-! ## Counting -/

/-- How wide the numbers are that `wc` writes: as wide as the size of all files together, but seven
places if an input is no file, and what it needs if a single number is written. -/
def countWidth (single : Bool) (extents : List Extent) : Nat :=
  let total := (extents.map fun extent =>
    match extent with
    | .sized bytes => bytes
    | _ => 0).foldl Nat.add 0
  let least := if extents.contains .unsized then 7 else 1
  if single then 1 else max least (toString total).length

def wc (c : Call) : Task :=
  let table : OptionTable := {
    plain := "clLmw", valued := ""
    long := [("bytes", 'c'), ("chars", 'm'), ("lines", 'l'), ("words", 'w'),
      ("max-line-length", 'L')] }
  c.withArguments table 1 fun a =>
    let all := a.options = []
    let inputs := inputsOf a.operands
    let kinds := ['l', 'w', 'm', 'c', 'L'].filter fun letter => a.has letter
    let single := kinds.length = 1 && inputs.length = 1
    let columns : Columns := {
      lines := all || a.has 'l', words := all || a.has 'w', characters := a.has 'm'
      bytes := all || a.has 'c', longest := a.has 'L'
      width := countWidth single (inputs.map c.extentOf) }
    filterAll (.count columns (1 < inputs.length) .empty .none) a.operands

/-! ## Exchanging bytes -/

/-- What is wrong with the number of the operands of `tr`, if anything is. -/
def operandFault? (c : Call) (wish : ExchangeWish) (operands : List Bytes) : Option Task :=
  match operands with
  | [] => some (c.misused "missing operand" 1)
  | [source] =>
    if wish.deletes == wish.squeezes then
      let purpose := if wish.deletes then "both deleting and squeezing repeats" else "translating"
      some (c.misused (s!"missing operand after {Quotation.inWords source}\n" ++
        s!"Two strings must be given when {purpose}.") 1)
    else none
  | _ :: target :: more =>
    let extra? := if wish.deletes && !wish.squeezes then some target else more.head?
    extra?.map fun extra =>
      let reason := if more = [] then
          "\nOnly one string may be given when deleting without squeezing repeats."
        else ""
      c.misused (s!"extra operand {Quotation.inWords extra}" ++ reason) 1

/-- The exchange that two operands describe. -/
def exchange (wish : ExchangeWish) (operands : List Bytes) : Except String Exchange := do
  let read := fun (text : Bytes) => (SetElement.elements text).mapError (·.explanation)
  let source ← read (operands.headD [])
  let target ← match operands[1]? with
    | some text => (read text).map some
    | none => .ok none
  Exchange.ofWish wish source target

def tr (c : Call) : Task :=
  let table : OptionTable := {
    plain := "cCdst", valued := ""
    long := [("complement", 'c'), ("delete", 'd'), ("squeeze-repeats", 's'),
      ("truncate-set1", 't')] }
  c.withArguments table 1 fun a =>
    let wish : ExchangeWish := {
      complemented := a.has 'c' || a.has 'C', deletes := a.has 'd', squeezes := a.has 's'
      truncates := a.has 't' }
    match operandFault? c wish a.operands with
    | some complaint => complaint
    | none =>
      let run := match exchange wish a.operands with
        | .error text => c.fail text 1
        | .ok e => filterAll (.exchange e) []
      let warning :=
        s!"{c.name}: warning: an unescaped backslash at end of string is not portable\n"
      let reached := match a.operands with
        | source :: rest => if (SetElement.elements source).isOk then source :: rest else [source]
        | [] => []
      let warnings := (reached.filter SetElement.endsInEscape).map fun _ => warning
      Task.warn (String.join warnings) run

/-! ## Waiting -/

/-- The seconds that a unit stands for. -/
def unitSeconds? (unit : List Char) : Option Nat :=
  match unit with
  | [] | ['s'] => some 1
  | ['m'] => some 60
  | ['h'] => some 3600
  | ['d'] => some 86400
  | _ => none

/-- The milliseconds of an interval such as `30`, `0.5`, `1e-3` or `2m`. -/
def interval? (text : Bytes) : Option Nat :=
  let chars := Script.ofBytes text
  let whole := chars.takeWhile Char.isDigit
  let rest := chars.drop whole.length
  let places := match rest with
    | '.' :: rest => rest.takeWhile Char.isDigit
    | _ => []
  let rest := match rest with
    | '.' :: rest => rest.drop places.length
    | rest => rest
  let (power, rest) : Int × List Char := match rest with
    | 'e' :: '-' :: more =>
      let digits := more.takeWhile Char.isDigit
      if digits = [] then (0, rest)
      else (-Int.ofNat (Report.ofDigits (Script.toBytes digits)), more.drop digits.length)
    | 'e' :: more =>
      let digits := more.takeWhile Char.isDigit
      if digits = [] then (0, rest)
      else (Int.ofNat (Report.ofDigits (Script.toBytes digits)), more.drop digits.length)
    | rest => (0, rest)
  if whole = [] && places = [] then none
  else (unitSeconds? rest).map fun seconds =>
    let n := Report.ofDigits (Script.toBytes (whole ++ places)) * seconds * 1000
    let n := n * Nat.pow 10 (min power.toNat 20)
    n / Nat.pow 10 (places.length + min (-power).toNat 400)

def sleep (c : Call) : Task :=
  c.withArguments ⟨"", "", []⟩ 1 fun a =>
    let wrong := a.operands.filter fun operand => (interval? operand).isNone
    if c.arguments = [] then c.misused "missing operand" 1
    else if wrong = [] then .sleeping ((a.operands.filterMap interval?).foldl Nat.add c.now)
    else
      let line := fun (text : Bytes) => s!"invalid time interval {Quotation.inWords text}"
      c.misused (s!"\n{c.name}: ".intercalate (wrong.map line)) 1

/-! ## All programs -/

/-- The programs that are installed, the command interpreter apart. -/
def names : List String :=
  ["cat", "echo", "false", "head", "sleep", "sort", "tr", "true", "uniq", "wc", "yes"]

/-- What a program does first. -/
def firstTask (program : String) (c : Call) : Task :=
  match program with
  | "cat" => cat c
  | "echo" => echo c
  | "false" => Task.exit 1
  | "head" => head c
  | "sleep" => sleep c
  | "sort" => sort c
  | "tr" => tr c
  | "true" => Task.exit 0
  | "uniq" => uniq c
  | "wc" => wc c
  | "yes" => yes c
  | _ => Task.exit 127

end Installed

end PipeShell
