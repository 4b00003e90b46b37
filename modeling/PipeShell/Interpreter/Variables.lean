import PipeShell.Interpreter.Signals

/-!
# Variables and options of a script

What the commands do that define variables, set options, or read lines into
variables.
-/

set_option autoImplicit false

namespace PipeShell.Machine

/-- The name and the value of an argument such as `x=1`. -/
def definition (argument : Bytes) : String × Option Bytes :=
  let name := argument.takeWhile (· ≠ 61)
  (Text.decodeLossy name,
    if name.length < argument.length then some (argument.drop (name.length + 1)) else none)

/-- The arguments behind options. -/
def withoutOptions (arguments : List Bytes) : List Bytes :=
  arguments.dropWhile fun argument => argument.head? = some 45 && 1 < argument.length

/-- What keeps a variable from being changed. -/
def nameFault? (s : Script) (name : String) : Option String :=
  if !Word.isName name.toList then some s!"{name}: bad variable name"
  else if s.readOnly.contains name then some s!"{name}: is read only"
  else none

/-- Defines variables that are handed on, or that cannot change from then on. -/
def declare (s : Script) (fixes : Bool) (arguments : List Bytes) : Except String Script :=
  (withoutOptions arguments).foldlM (fun (s : Script) argument =>
    let (name, value?) := definition argument
    let fault? := match value? with
      | some _ => nameFault? s name
      | none => if Word.isName name.toList then none else some s!"{name}: bad variable name"
    match fault? with
    | some text => .error text
    | none =>
      let s := (value?.map fun value => s.setVariable name value).getD s
      .ok (if fixes then { s with readOnly := name :: s.readOnly }
        else { s with exports := name :: s.exports })) s

/-- Variables as commands that define them. -/
def definitions (s : Script) (command : String) (names : List String) : Bytes :=
  let ordered := names.eraseDups.mergeSort fun a b => a ≤ b
  ordered.flatMap fun name =>
    let value := match s.values.get? name with
      | some value => Text.encode "=" ++ singleQuoted value
      | none => []
    Text.encode s!"{command} {name}" ++ value ++ [10]

/-- Gives the function that is under way variables of its own. -/
def makeLocal (s : Script) (arguments : List Bytes) : Except String Script :=
  (withoutOptions arguments).foldlM (fun (s : Script) argument =>
    let (name, value?) := definition argument
    match nameFault? s name, Script.save name (s.values.get? name) s.todo with
    | some text, _ => .error text
    | none, none => .error "not in a function"
    | none, some todo =>
      let s := { s with todo }
      .ok ((value?.map fun value => s.setVariable name value).getD s)) s

def undefine (s : Script) (arguments : List Bytes) : Except String Script :=
  let functions := arguments.head? = some (Text.encode "-f")
  (withoutOptions arguments).foldlM (fun (s : Script) argument =>
    let name := Text.decodeLossy argument
    match nameFault? s name with
    | some text => .error text
    | none =>
      .ok (if functions then
          { s with functions := s.functions.filter fun entry => entry.1 ≠ name }
        else
          { s with
            values := s.values.erase name
            exports := s.exports.filter (· ≠ name) })) s

/-- The values that variables have now. -/
def savedValues (s : Script) (names : List String) : List (String × Option Bytes) :=
  names.map fun name => (name, s.values.get? name)

/-- Gives variables the values that they had before. -/
def restoreVariables (s : Script) (saved : List (String × Option Bytes)) : Script :=
  saved.foldl (fun s (name, old) =>
    { s with
      values := match old with
        | some value => s.values.insert name value
        | none => s.values.erase name }) s

/-! ## Options -/

/-- The long names of options. -/
def optionNames : List (String × Char) :=
  [("errexit", 'e'), ("noglob", 'f'), ("ignoreeof", 'I'), ("interactive", 'i'), ("monitor", 'm'),
    ("noexec", 'n'), ("stdin", 's'), ("xtrace", 'x'), ("verbose", 'v'), ("vi", 'V'),
    ("emacs", 'E'), ("noclobber", 'C'), ("allexport", 'a'), ("notify", 'b'), ("nounset", 'u')]

/-- Turns the options of some letters on or off, or names the first that does not exist. -/
def switch (s : Script) (on : Bool) (letters : List Char) : Except String Script :=
  letters.foldlM (fun (s : Script) c =>
    if !Script.optionLetters.contains c then .error (String.singleton c)
    else
      let others := s.options.filter (· ≠ c)
      .ok { s with options := if on then c :: others else others }) s

/-- Sets options, and the arguments behind them.  Names the first option that does not exist. -/
def setOptions (s : Script) : List Bytes → Except String Script
  | [] => .ok s
  | argument :: rest =>
    match Script.ofBytes argument, rest with
    | ['-', '-'], rest => .ok { s with arguments := rest }
    | [sign, 'o'], name :: rest =>
      if sign = '-' || sign = '+' then
        match optionNames.lookup (Text.decodeLossy name) with
        | some c => (switch s (sign = '-') [c]).bind fun s => setOptions s rest
        | none => .error s!"o {Text.decodeLossy name}"
      else .ok { s with arguments := argument :: name :: rest }
    | '-' :: c :: letters, rest =>
      (switch s true (c :: letters)).bind fun s => setOptions s rest
    | '+' :: c :: letters, rest =>
      (switch s false (c :: letters)).bind fun s => setOptions s rest
    | _, rest => .ok { s with arguments := argument :: rest }

/-! ## Reading -/

/-- A line without the backslashes that quote, each byte with whether it was quoted; or nothing if
the line goes on behind a backslash. -/
def quotedBytes : Bytes → Option (List (UInt8 × Bool))
  | [] => some []
  | [b] => if b = 92 then none else some [(b, false)]
  | b :: c :: rest =>
    if b = 92 then (quotedBytes rest).map ((c, true) :: ·)
    else (quotedBytes (c :: rest)).map ((b, false) :: ·)

/-- Gives the words of a line to variables.  The last of them gets all that is left, without soft
separators at its end, and without any if a single word is left. -/
def giveWords (s : Script) (line : List (UInt8 × Bool)) (names : List String) : Script :=
  let isSeparator := fun (b : UInt8 × Bool) => !b.2 && s.separators.contains b.1
  let isSoft := fun (b : UInt8 × Bool) => isSeparator b && Script.isSoft b.1
  let line := line.dropWhile isSoft
  let word := line.takeWhile fun b => !isSeparator b
  let behind := (line.drop word.length).dropWhile isSoft
  let behind := match behind with
    | b :: rest => if isSeparator b then rest.dropWhile isSoft else behind
    | [] => []
  match names with
  | [] => s
  | [name] =>
    let value := if behind = [] then word else (line.reverse.dropWhile isSoft).reverse
    s.setVariable name (value.map Prod.fst)
  | name :: names => giveWords (s.setVariable name (word.map Prod.fst)) behind names

end PipeShell.Machine
