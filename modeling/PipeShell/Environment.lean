import PipeShell.Dictionary
import PipeShell.Text.Utf8

/-!
# The environment

The variables a process hands to the programs it starts.  A value is any bytes
without a NUL; a name is not empty and holds neither `=` nor NUL.  Storing
anything else is refused.
-/

set_option autoImplicit false

namespace PipeShell

abbrev Environment := Dictionary Bytes

namespace Environment

/-- The environment can hold this value under this name. -/
def admits (name : String) (value : Bytes) : Bool :=
  name ≠ "" && !name.toList.any (fun c => c = '=' || c = '\x00') && !value.contains 0

def assign (env : Environment) (name : String) (value : Bytes) : Option Environment :=
  if admits name value then some (env.insert name value) else none

/-- The value of a variable that is set to text. -/
def text? (env : Environment) (name : String) : Option String :=
  (env.get? name).bind Text.decode?

def pathName : String := "PATH"

def homeName : String := "HOME"

/-- The variable that names the working directory. -/
def directoryName : String := "PWD"

/-- Appends a directory to the search list.  A list that is empty, unset or no text gives way to the
directory alone. -/
def addToPath (env : Environment) (directory : String) : Option Environment :=
  let list := match env.text? pathName with
    | some old => if old = "" then directory else old ++ ":" ++ directory
    | none => directory
  env.assign pathName (Text.encode list)

end Environment

end PipeShell
