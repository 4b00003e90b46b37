import PipeShell.Program.Report
import PipeShell.Program.Script

/-!
# Options and operands

The arguments of a program are options, each a letter or a long name, some with
a value, and operands.  Options may stand between operands, and `--` ends them.
`Arguments.read` sorts them out, up to the first one that is wrong.
-/

set_option autoImplicit false

namespace PipeShell

/-- The options that a program takes. -/
structure OptionTable where
  plain : String
  /-- The letters of options that have a value. -/
  valued : String
  /-- Long names, each with the letter of the same option. -/
  long : List (String × Char)

/-- What is wrong with an option. -/
inductive OptionFault where
  | unknownLetter (letter : Char)
  | valueMissing (letter : Char)
  | unknownName (text : String)
  | ambiguous (text : String) (names : List String)
  | valueMissingFor (name : String)
  | valueRefused (name : String)
  deriving DecidableEq

structure Arguments where
  options : List (Char × Bytes)
  operands : List Bytes
  fault : Option OptionFault

namespace OptionFault

def explanation : OptionFault → String
  | unknownLetter letter => s!"invalid option -- '{letter}'"
  | valueMissing letter => s!"option requires an argument -- '{letter}'"
  | unknownName text => s!"unrecognized option '--{text}'"
  | ambiguous text names =>
    let candidates := String.join (names.map fun name => s!" '--{name}'")
    s!"option '--{text}' is ambiguous; possibilities:{candidates}"
  | valueMissingFor name => s!"option '--{name}' requires an argument"
  | valueRefused name => s!"option '--{name}' doesn't allow an argument"

end OptionFault

namespace Arguments

def empty : Arguments := ⟨[], [], none⟩

/-- One argument's options, what is left of the arguments behind it, and what is wrong. -/
structure Step where
  options : List (Char × Bytes)
  rest : List Bytes
  fault : Option OptionFault

/-- The options in a cluster of letters.  A letter with a value takes the rest of the cluster, or
the next argument. -/
def cluster (table : OptionTable) : List Char → List Bytes → Step
  | [], rest => ⟨[], rest, none⟩
  | c :: more, rest =>
    if table.valued.toList.contains c then
      match more, rest with
      | [], [] => ⟨[], [], some (.valueMissing c)⟩
      | [], value :: rest => ⟨[(c, value)], rest, none⟩
      | more, rest => ⟨[(c, Script.toBytes more)], rest, none⟩
    else if table.plain.toList.contains c then
      let step := cluster table more rest
      { step with options := (c, []) :: step.options }
    else ⟨[], rest, some (.unknownLetter c)⟩

/-- The option of a long name, or of the beginning of one, with the value behind `=`. -/
def named (table : OptionTable) (text : List Char) (rest : List Bytes) : Step :=
  let name := text.takeWhile (· ≠ '=')
  let value? := if name.length < text.length then some (text.drop (name.length + 1)) else none
  let fail := fun (fault : OptionFault) => (⟨[], rest, some fault⟩ : Step)
  let exact := table.long.filter fun entry => entry.1.toList = name
  let found := if exact.isEmpty then
      table.long.filter fun entry => name.isPrefixOf entry.1.toList
    else exact
  let distinct := (found.map Prod.snd).eraseDups
  match found, distinct with
  | (full, letter) :: _, [_] =>
    if table.valued.toList.contains letter then
      match value?, rest with
      | some value, rest => ⟨[(letter, Script.toBytes value)], rest, none⟩
      | none, value :: rest => ⟨[(letter, value)], rest, none⟩
      | none, [] => fail (.valueMissingFor full)
    else match value? with
      | some _ => fail (.valueRefused full)
      | none => ⟨[(letter, [])], rest, none⟩
  | [], _ =>
    match ["help", "version"].find? fun full => name.isPrefixOf full.toList, value? with
    | some full, some _ => fail (.valueRefused full)
    | _, _ => fail (.unknownName (String.ofList text))
  | found, _ => fail (.ambiguous (String.ofList text) (found.map Prod.fst))

theorem length_rest_cluster_le (table : OptionTable) (letters : List Char) (rest : List Bytes) :
    (cluster table letters rest).rest.length ≤ rest.length := by
  induction letters generalizing rest with
  | nil => simp [cluster]
  | cons c more ih =>
    unfold cluster
    split
    · cases more <;> cases rest <;> simp
    · split
      · exact ih rest
      · simp

theorem length_rest_named_le (table : OptionTable) (text : List Char) (rest : List Bytes) :
    (named table text rest).rest.length ≤ rest.length := by
  unfold named
  dsimp only
  repeat' split
  all_goals simp

/-- Sorts out arguments. -/
def read (table : OptionTable) : List Bytes → Arguments
  | [] => empty
  | argument :: rest =>
    let go := fun (step : Step) (_shorter : step.rest.length ≤ rest.length) =>
      if step.fault.isSome then { empty with options := step.options, fault := step.fault }
      else
        let more := read table step.rest
        { more with options := step.options ++ more.options }
    match Script.ofBytes argument with
    | ['-', '-'] => { empty with operands := rest }
    | '-' :: '-' :: text => go (named table text rest) (length_rest_named_le table text rest)
    | '-' :: c :: letters =>
      go (cluster table (c :: letters) rest) (length_rest_cluster_le table (c :: letters) rest)
    | _ =>
      let more := read table rest
      { more with operands := argument :: more.operands }
termination_by arguments => arguments.length
decreasing_by
  · simp only [List.length_cons]; omega
  · simp

def has (a : Arguments) (c : Char) : Bool :=
  a.options.any fun option => option.1 = c

/-- The option given last of some. -/
def last? (a : Arguments) (letters : String) : Option (Char × Bytes) :=
  a.options.reverse.find? fun option => letters.toList.contains option.1

/-- The value given last for an option. -/
def value? (a : Arguments) (c : Char) : Option Bytes :=
  (a.last? (String.singleton c)).map Prod.snd

end Arguments

/-! ## Numbers -/

def number? (text : Bytes) : Option Nat :=
  if text ≠ [] && text.all Report.isDigit then some (Report.ofDigits text) else none

/-- What the letters behind a number multiply it by. -/
def multiplier? (letters : String) : Option Nat :=
  match letters with
  | "" => some 1
  | "b" => some 512
  | "kB" => some 1000
  | "k" | "K" | "KiB" => some 1024
  | "MB" => some 1000000
  | "M" | "m" | "MiB" => some (1024 * 1024)
  | "GB" => some 1000000000
  | "G" | "GiB" => some (1024 * 1024 * 1024)
  | _ => none

/-- An amount such as `12` or `4k`. -/
def amount? (text : Bytes) : Option Nat :=
  let digits := text.takeWhile Report.isDigit
  match number? digits, multiplier? (Text.decodeLossy (text.drop digits.length)) with
  | some n, some factor => some (n * factor)
  | _, _ => none

end PipeShell
