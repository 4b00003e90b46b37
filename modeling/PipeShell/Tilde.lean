import PipeShell.Text.WhiteSpace

/-!
# Home directories

`~` at the head of an argument, up to the first `/`, names a home directory:
alone it is the user's own, followed by a name it is that user's.  An argument
whose home is not known stays as it is.
-/

set_option autoImplicit false

namespace PipeShell

/-- The home directories that can be looked up. -/
structure Homes where
  /-- The user's own, as the environment gives it. -/
  own : Option String
  /-- Those of named users. -/
  ofUser : String → Option String

namespace Homes

def home? (homes : Homes) (user : List Char) : Option String :=
  if user = [] then homes.own else homes.ofUser (String.ofList user)

/-- The argument with the home directory its leading tilde names. -/
def expand (homes : Homes) (arg : String) : String :=
  match arg.toList with
  | '~' :: rest =>
    match homes.home? (rest.takeWhile (· ≠ '/')) with
    | some home => home ++ String.ofList (rest.dropWhile (· ≠ '/'))
    | none => arg
  | _ => arg

end Homes

end PipeShell
