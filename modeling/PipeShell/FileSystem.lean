import PipeShell.Errno
import PipeShell.Text.Utf8

/-!
# The file tree

A file system is a table of nodes; a node is known by its index, which never
changes and is never used again.  Directories name their entries and know the
directory they are in, so a directory that was removed still has a parent to
climb to, although no path leads back to it (`pathOf`).

Paths are walked step by step from a directory.  A link is replaced by its
target where it stands, at most `linkLimit` times in one walk.  A slash at the
end of a path or of a target is a step of its own, which only a directory
allows.

Files belong to the one user there is, who has only the permissions that a mode
gives the owner.
-/

set_option autoImplicit false

namespace PipeShell

/-- Files that hold nothing. -/
inductive Device where
  /-- Takes everything and gives nothing. -/
  | null
  /-- Takes nothing, as a full disk does, and gives zeros without end. -/
  | full
  /-- Takes everything and gives zeros without end. -/
  | zero
  deriving DecidableEq

inductive Node where
  | directory (parent : Nat) (entries : List (Bytes × Nat)) (removed : Bool)
  | file (mode : Nat) (content : ByteArray)
  | link (target : Bytes)
  /-- An installed program, by its name. -/
  | program (name : String)
  | device (kind : Device)

structure FileSystem where
  nodes : Array Node

/-- Where a path leads: to a node, or to a name that nothing has in an existing directory. -/
inductive Place where
  | node (id : Nat)
  | vacant (directory : Nat) (name : Bytes)
  deriving DecidableEq

/-! ## Paths -/

namespace Path

def slash : UInt8 := 47

def dot : UInt8 := 46

/-- The names along a path. -/
def components (path : Bytes) : List Bytes :=
  (path.splitOn slash).filter fun name => !name.isEmpty

def isAbsolute (path : Bytes) : Bool :=
  path.head? = some slash

def endsInSlash (path : Bytes) : Bool :=
  path.getLast? = some slash

/-- The steps along a path: its names, and an empty one for a slash at the end. -/
def steps (path : Bytes) : List Bytes :=
  components path ++ if endsInSlash path then [[]] else []

def hasNul (path : Bytes) : Bool :=
  path.contains 0

/-- The path of `name` in a directory.  An absolute name stands for itself. -/
def join (directory name : Bytes) : Bytes :=
  if isAbsolute name then name
  else if directory = [] || endsInSlash directory then directory ++ name
  else directory ++ slash :: name

/-- The absolute path along the names. -/
def absolute (names : List Bytes) : Bytes :=
  slash :: [slash].intercalate names

def nameLimit : Nat := 255

def lengthLimit : Nat := 4096

def linkLimit : Nat := 40

end Path

namespace FileSystem

def root : Nat := 0

/-- Nothing but the root, which is its own parent. -/
def empty : FileSystem := ⟨#[.directory root [] false]⟩

instance : Inhabited FileSystem := ⟨empty⟩

def node? (fs : FileSystem) (id : Nat) : Option Node :=
  fs.nodes[id]?

def isDirectory (fs : FileSystem) (id : Nat) : Bool :=
  match fs.node? id with
  | some (.directory ..) => true
  | _ => false

/-! ## Permissions -/

/-- What a file may be used for. -/
inductive Permission where
  | read
  | write
  | execute
  deriving DecidableEq, Repr

/-- The bit of a mode that gives a permission to the owner. -/
def Permission.bit : Permission → Nat
  | read => 0o400
  | write => 0o200
  | execute => 0o100

/-- A file may be used so.  Everything but regular files may be used in any way. -/
def permits (fs : FileSystem) (id : Nat) (permission : Permission) : Bool :=
  match fs.node? id with
  | some (.file mode _) => mode &&& permission.bit ≠ 0
  | _ => true

/-! ## Walking -/

/-- What a path is walked for. -/
inductive Purpose where
  /-- To find what it leads to. -/
  | find
  /-- To find what it leads to, a link in the last place not followed. -/
  | findLink
  /-- To find a file or the place for a new one, which no path with a slash at its end names. -/
  | make
  deriving DecidableEq, Repr

/-- Follows the steps from a directory.  `links` bounds the links replaced. -/
def walk (fs : FileSystem) (purpose : Purpose) (links here : Nat) :
    List Bytes → Except Errno Place
  | [] => .ok (.node here)
  | name :: rest =>
    match fs.node? here with
    | some (.directory parent entries _) =>
      if name = [] || name = [Path.dot] then walk fs purpose links here rest
      else if name = [Path.dot, Path.dot] then walk fs purpose links parent rest
      else if purpose = .make && rest = [[]] then .error .isDirectory
      else if name.length > Path.nameLimit then .error .nameTooLong
      else match entries.lookup name with
        | none => if rest = [] then .ok (.vacant here name) else .error .noEntry
        | some id =>
          match fs.node? id with
          | some (.link target) =>
            if rest = [] && purpose = .findLink then .ok (.node id)
            else match links with
              | 0 => .error .tooManyLinks
              | links + 1 =>
                let start := if Path.isAbsolute target then root else here
                walk fs purpose links start (Path.steps target ++ rest)
          | _ => walk fs purpose links id rest
    | _ => .error .notDirectory
termination_by steps => (links, steps.length)

/-- Where a path leads from the directory `here`. -/
def resolve (fs : FileSystem) (purpose : Purpose) (here : Nat) (path : Bytes) :
    Except Errno Place :=
  if path = [] then .error .noEntry
  else if path.length ≥ Path.lengthLimit then .error .nameTooLong
  else
    let start := if Path.isAbsolute path then root else here
    walk fs purpose Path.linkLimit start (Path.steps path)

/-- The node at a path. -/
def find (fs : FileSystem) (here : Nat) (path : Bytes) : Except Errno Nat :=
  match fs.resolve .find here path with
  | .error cause => .error cause
  | .ok (.vacant ..) => .error .noEntry
  | .ok (.node id) => .ok id

/-- The node at a path, if it may be read. -/
def findReadable (fs : FileSystem) (here : Nat) (path : Bytes) : Except Errno Nat :=
  match fs.find here path with
  | .error cause => .error cause
  | .ok id => if fs.permits id .read then .ok id else .error .accessDenied

/-- The path leads to a regular file, links followed. -/
def isFile (fs : FileSystem) (here : Nat) (path : Bytes) : Bool :=
  if Path.hasNul path then false
  else match fs.find here path with
    | .error _ => false
    | .ok id =>
      match fs.node? id with
      | some (.file ..) | some (.program _) => true
      | _ => false

/-- The directory a path leads to. -/
def findDirectory (fs : FileSystem) (here : Nat) (path : Bytes) : Except Errno Nat :=
  match fs.find here path with
  | .error cause => .error cause
  | .ok id => if fs.isDirectory id then .ok id else .error .notDirectory

/-- The names from the root to a directory, climbing at most `fuel` steps. -/
def climb (fs : FileSystem) : Nat → Nat → List Bytes → Option (List Bytes)
  | 0, _, _ => none
  | fuel + 1, id, below =>
    if id = root then some below
    else match fs.node? id with
      | some (.directory parent _ _) =>
        match fs.node? parent with
        | some (.directory _ entries _) =>
          match entries.find? fun entry => entry.2 = id with
          | some (name, _) => climb fs fuel parent (name :: below)
          | none => none
        | _ => none
      | _ => none

/-- The absolute path of a directory.  A removed one has none. -/
def pathOf (fs : FileSystem) (id : Nat) : Except Errno Bytes :=
  match fs.climb (fs.nodes.size + 1) id [] with
  | some names => .ok (Path.absolute names)
  | none => .error .noEntry

/-! ## Content -/

def content (fs : FileSystem) (id : Nat) : ByteArray :=
  match fs.node? id with
  | some (.file _ content) => content
  | _ => .empty

def set (fs : FileSystem) (id : Nat) (node : Node) : FileSystem :=
  ⟨fs.nodes.setIfInBounds id node⟩

/-- Writes `data` over and behind what stands at `offset`. -/
def splice (old : ByteArray) (offset : Nat) (data : ByteArray) : ByteArray :=
  let padding := ByteArray.mk (Array.replicate (offset - old.size) 0)
  old.extract 0 offset ++ padding ++ data ++ old.extract (offset + data.size) old.size

def write (fs : FileSystem) (id offset : Nat) (data : ByteArray) : FileSystem :=
  match fs.node? id with
  | some (.file mode old) => fs.set id (.file mode (splice old offset data))
  | _ => fs

def truncate (fs : FileSystem) (id : Nat) : FileSystem :=
  match fs.node? id with
  | some (.file mode _) => fs.set id (.file mode .empty)
  | _ => fs

/-- Makes `name` an entry of the directory for a new node. -/
def link (fs : FileSystem) (directory : Nat) (name : Bytes) (node : Node) : FileSystem × Nat :=
  let id := fs.nodes.size
  match fs.node? directory with
  | some (.directory parent entries removed) =>
    let entries := entries.filter (fun entry => entry.1 ≠ name) ++ [(name, id)]
    (⟨(fs.set directory (.directory parent entries removed)).nodes.push node⟩, id)
  | _ => (fs, id)

/-- Where a file opened for writing at this path is to be found or made: the node, or the place for
a new one. -/
def findForWriting (fs : FileSystem) (here : Nat) (path : Bytes) : Except Errno Place :=
  match fs.resolve .make here path with
  | .error cause => .error cause
  | .ok (.vacant directory name) =>
    match fs.node? directory with
    | some (.directory _ _ false) => .ok (.vacant directory name)
    | _ => .error .noEntry
  | .ok (.node id) =>
    if fs.isDirectory id then .error .isDirectory
    else if fs.permits id .write then .ok (.node id)
    else .error .accessDenied

/-- The file at a path, emptied, or a new one of the given mode. -/
def recreate (fs : FileSystem) (here : Nat) (path : Bytes) (mode : Nat) :
    Except Errno (FileSystem × Nat) :=
  match fs.findForWriting here path with
  | .error cause => .error cause
  | .ok (.node id) => .ok (fs.truncate id, id)
  | .ok (.vacant directory name) => .ok (fs.link directory name (.file mode .empty))

/-! ## Building and removing -/

/-- The directory along the names, made where it is missing. -/
def makeDirectories (fs : FileSystem) (here : Nat) : List Bytes → FileSystem × Nat
  | [] => (fs, here)
  | name :: rest =>
    match fs.walk .find Path.linkLimit here [name] with
    | .ok (.node id) => makeDirectories fs id rest
    | _ =>
      let (fs, id) := fs.link here name (.directory here [] false)
      makeDirectories fs id rest

/-- Puts a node at a path, with the directories that lead there. -/
def install (fs : FileSystem) (here : Nat) (path : Bytes) (node : Nat → Node) : FileSystem :=
  let start := if Path.isAbsolute path then root else here
  match (Path.components path).reverse with
  | [] => fs
  | name :: above =>
    let (fs, directory) := fs.makeDirectories start above.reverse
    (fs.link directory name (node directory)).1

/-- Marks a directory and all below it as removed, and empties them. -/
def prune (fs : FileSystem) : Nat → Nat → FileSystem
  | 0, _ => fs
  | fuel + 1, id =>
    match fs.node? id with
    | some (.directory parent entries _) =>
      let fs := fs.set id (.directory parent [] true)
      entries.foldl (fun fs entry => prune fs fuel entry.2) fs
    | _ => fs

/-- Removes what stands at a path, a directory with everything in it. -/
def remove (fs : FileSystem) (here : Nat) (path : Bytes) : FileSystem :=
  match fs.resolve .findLink here path with
  | .ok (.node id) =>
    let unlinked := fs.nodes.map fun node =>
      match node with
      | .directory parent entries removed =>
        .directory parent (entries.filter fun entry => entry.2 ≠ id) removed
      | node => node
    prune ⟨unlinked⟩ fs.nodes.size id
  | _ => fs

/-- The regular files below a directory, each with the names that lead to it, at most `fuel` levels
deep. -/
def filesBelow (fs : FileSystem) : Nat → Nat → List (List Bytes × Nat × ByteArray)
  | 0, _ => []
  | fuel + 1, id =>
    match fs.node? id with
    | some (.directory _ entries _) =>
      entries.flatMap fun (name, child) =>
        match fs.node? child with
        | some (.file mode content) => [([name], mode, content)]
        | some (.directory ..) =>
          (filesBelow fs fuel child).map fun (names, rest) => (name :: names, rest)
        | _ => []
    | _ => []

def regularFiles (fs : FileSystem) (directory : Nat) : List (List Bytes × Nat × ByteArray) :=
  fs.filesBelow fs.nodes.size directory

end FileSystem

end PipeShell
