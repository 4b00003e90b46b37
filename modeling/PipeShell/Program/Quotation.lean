import PipeShell.Text.Utf8

/-!
# Names in complaints

A complaint shows a name in a way that leaves no doubt where it ends.
`asNeeded` and `always` write it as a command interpreter would read it back;
`inWords` writes it for a sentence.  Bytes that cannot be shown are written as
escapes.
-/

set_option autoImplicit false

namespace PipeShell.Quotation

def charOf (b : UInt8) : Char := Char.ofNat b.toNat

/-- How a byte that cannot be shown is written behind a backslash. -/
def escape? (b : UInt8) : Option String :=
  match b with
  | 7 => some "a"
  | 8 => some "b"
  | 9 => some "t"
  | 10 => some "n"
  | 11 => some "v"
  | 12 => some "f"
  | 13 => some "r"
  | b =>
    if 32 ≤ b && b < 127 then none
    else some (s!"{b / 64}{b / 8 % 8}{b % 8}")

/-- The bytes between single quotes, of which the first has been written.  Escapes have quotes of
their own behind a dollar sign, which are open if `escaping`. -/
def quotedFrom (escaping : Bool) : Bytes → String
  | [] => "'"
  | b :: rest =>
    match escape? b with
    | some code => (if escaping then "\\" else "'$'\\") ++ code ++ quotedFrom true rest
    | none =>
      if charOf b = '\'' then "'\\''" ++ quotedFrom false rest
      else
        (if escaping then "''" else "") ++ String.singleton (charOf b) ++ quotedFrom false rest

/-- A byte means the same between double quotes as between single ones. -/
def isSafeInDoubleQuotes (b : UInt8) : Bool :=
  let c := charOf b
  c.isAlphanum || "%+,-./:]_@ '".toList.contains c

/-- The name between quotes. -/
def always (name : Bytes) : String :=
  let isSafe := match name with
    | [] => true
    | b :: rest =>
      (isSafeInDoubleQuotes b || charOf b = '#' || charOf b = '~') && rest.all isSafeInDoubleQuotes
  if name.any (fun b => charOf b = '\'') && isSafe then
    "\"" ++ String.ofList (name.map charOf) ++ "\""
  else "'" ++ quotedFrom false name

/-- A command interpreter would not take the byte for itself. -/
def isActive (b : UInt8) : Bool :=
  (escape? b).isSome || " !\"$&'()*:;<=>?[\\^\x60|".toList.contains (charOf b)

/-- The name, between quotes if a command interpreter needs them. -/
def asNeeded (name : Bytes) : String :=
  let isActiveFirst := fun (b : UInt8) => charOf b = '#' || charOf b = '~'
  let needed := match name with
    | [] => true
    | [b] => isActive b || isActiveFirst b || charOf b = '\x7b' || charOf b = '\x7d'
    | b :: rest => isActiveFirst b || (b :: rest).any isActive
  if needed then always name else String.ofList (name.map charOf)

/-- The name between quotes in a sentence. -/
def inWords (name : Bytes) : String :=
  let shown := name.map fun b =>
    match escape? b with
    | some code => "\\" ++ code
    | none =>
      if charOf b = '\'' || charOf b = '\\' then "\\" ++ String.singleton (charOf b)
      else String.singleton (charOf b)
  "'" ++ String.join shown ++ "'"

end PipeShell.Quotation
