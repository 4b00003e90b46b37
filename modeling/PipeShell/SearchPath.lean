import PipeShell.Machine

/-!
# Where programs are looked for

A program named without a slash is looked for in the directories of `PATH` and
then in the working directory, at the moment it is started.  Empty directories
in the list are passed over.  A name with a slash is a path and is taken as it
is.
-/

set_option autoImplicit false

namespace PipeShell.SearchPath

def colon : UInt8 := 58

/-- The directories that a value of `PATH` lists, empty ones included. -/
def split (list : Bytes) : List Bytes :=
  list.splitOn colon

/-- The directories to search: those of `PATH`, then the working directory if it has a path. -/
def directories (m : Machine) : List Bytes :=
  let listed := match m.env.get? Environment.pathName with
    | some list => split list
    | none => []
  let here := match m.workingDirectory with
    | .ok path => [path]
    | .error _ => []
  listed ++ here

/-- The paths worth trying for a name, in order. -/
def candidatesIn (isFile : Bytes → Bool) (directories : List Bytes) (name : Bytes) : List Bytes :=
  if name.contains Path.slash then [name]
  else ((directories.filter (· ≠ [])).map fun directory => Path.join directory name).filter isFile

/-- The paths worth trying for a name on a machine. -/
def candidates (m : Machine) (name : String) : List Bytes :=
  candidatesIn (m.files.isFile m.cwd) (directories m) (Text.encode name)

end PipeShell.SearchPath
