import PipeShell.Machine
import PipeShell.Program.Installed

/-!
# The machine the shell starts on

A small system: the programs in `/usr/bin`, which `/bin` leads to, the devices,
and the usual directories.  The one user is `root`.
-/

set_option autoImplicit false

namespace PipeShell.Installation

def path (text : String) : Bytes := Text.encode text

def directories : List String :=
  ["/dev", "/etc", "/home", "/opt", "/root", "/tmp", "/usr/bin", "/usr/lib", "/usr/local/bin",
    "/var/tmp"]

def withDirectory (fs : FileSystem) (name : String) : FileSystem :=
  (fs.makeDirectories FileSystem.root (Path.components (path name))).1

def withProgram (fs : FileSystem) (name : String) : FileSystem :=
  fs.install FileSystem.root (path s!"/usr/bin/{name}") fun _ => .program name

/-- The file tree with nothing in it but what is installed. -/
def files : FileSystem :=
  let fs := directories.foldl withDirectory FileSystem.empty
  let fs := ("sh" :: Installed.names).foldl withProgram fs
  let fs := fs.install FileSystem.root (path "/bin") fun _ => .link (path "usr/bin")
  let fs := fs.install FileSystem.root (path "/dev/null") fun _ => .device .null
  let fs := fs.install FileSystem.root (path "/dev/zero") fun _ => .device .zero
  fs.install FileSystem.root (path "/dev/full") fun _ => .device .full

def users (name : String) : Option String :=
  if name = "root" then some "/root" else none

/-- How many descriptors a process may have. -/
def descriptorLimit : Nat := 1024

/-- A machine on which the shell has started in a directory. -/
def machine (files : FileSystem) (cwd : Nat) (env : Environment) : Machine where
  files := files
  cwd := cwd
  env := env
  users := users
  table := .standard
  limit := descriptorLimit
  faults := []
  pipes := #[]
  cursors := #[]
  roster := ⟨[]⟩
  shellGroup := 1
  running := []
  ended := []
  nextPid := 100
  clock := 0
  output := .empty
  errors := .empty

end PipeShell.Installation
