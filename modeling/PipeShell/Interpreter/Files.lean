import PipeShell.Machine.Process

/-!
# Files of a script

The files that a pattern matches, the directory that a step leads to, and the
redirections of a command.
-/

set_option autoImplicit false

namespace PipeShell.Machine

/-! ## Reasons -/

/-- Nothing is there. -/
def isAbsence (cause : Errno) : Bool := cause = .noEntry || cause = .notDirectory

/-- Why a file cannot be opened, in the words of the command interpreter. -/
def openReason (cause : Errno) : String :=
  if isAbsence cause then "No such file" else cause.description

/-- Why a file cannot be made, in the words of the command interpreter. -/
def makeReason (cause : Errno) : String :=
  if isAbsence cause then "Directory nonexistent" else cause.description

/-! ## Names -/

/-- The names in a directory of a process, in their order. -/
def namesIn (m : Machine) (p : Running) (directory : Bytes) : List Bytes :=
  match m.files.find p.cwd (if directory = [] then [Path.dot] else directory) with
  | .error _ => []
  | .ok id =>
    match m.files.node? id with
    | some (.directory _ entries _) =>
      let names := [Path.dot] :: [Path.dot, Path.dot] :: entries.map Prod.fst
      names.mergeSort fun a b => a ≤ b
    | _ => []

/-- The names in a directory that a pattern matches. -/
def namesMatching (m : Machine) (p : Running) (directory : Bytes) (pattern : Pattern) :
    List Bytes :=
  (m.namesIn p directory).filter fun name =>
    pattern.admitsHidden name && pattern.matchesText name

/-- The paths that a pattern matches, one name after the other.  `found` lists the directories
reached, each with a slash at its end. -/
def pathsMatching (m : Machine) (p : Running) (found : List Bytes) :
    List Pattern → List Bytes
  | [] => []
  | [last] =>
    found.flatMap fun directory => (m.namesMatching p directory last).map (directory ++ ·)
  | first :: rest =>
    let next := found.flatMap fun directory =>
      let names := if first.isActive then m.namesMatching p directory first else [first.toBytes]
      (names.map fun name => directory ++ name ++ [Path.slash]).filter fun path =>
        (m.files.findDirectory p.cwd path).isOk
    pathsMatching m p next rest

/-- The files that a pattern matches. -/
def filesMatching (m : Machine) (p : Running) (pattern : Pattern) : List Bytes :=
  pathsMatching m p [[]] (pattern.splitOnP fun b => b.1 = Path.slash)

/-- The path that a step leads to from an absolute one, taking names as they stand. -/
def logicalPath (here target : Bytes) : Bytes :=
  let names := (if Path.isAbsolute target then [] else Path.components here) ++
    Path.components target
  Path.absolute ((names.foldl (fun above name =>
    if name = [Path.dot] then above
    else if name = [Path.dot, Path.dot] then above.drop 1
    else name :: above) []).reverse)

/-! ## Redirections -/

/-- A table with an open descriptor moved to a number. -/
def moved (table : DescriptorTable) (opened number : Nat) : DescriptorTable :=
  if opened = number then table
  else ((table.duplicate opened number).getD table).close opened

/-- Applies the redirections of a command to a table. -/
def redirect (m : Machine) (p : Running) (table : DescriptorTable) :
    List (Redirect × Bytes) → Except String (DescriptorTable × Machine)
  | [] => .ok (table, m)
  | (r, text) :: rest =>
    let shown := Text.decodeLossy text
    let place := fun (opened : Nat × DescriptorTable × Machine) =>
      (moved opened.2.1 opened.1 r.descriptor, opened.2.2)
    let changed : Except String (DescriptorTable × Machine) := match r.target with
      | .copyOf _ =>
        if text = [45] then .ok (table.close r.descriptor, m)
        else match number? text with
          | none => .error "Bad fd number"
          | some n =>
            match table.duplicate n r.descriptor with
            | some table => .ok (table, m)
            | none => .error s!"{n}: Bad file descriptor"
      | .input _ =>
        ((m.openFor p table text .reading false).map place).mapError fun cause =>
          s!"cannot open {shown}: {openReason cause}"
      | .output _ append =>
        ((m.openFor p table text .writing append).map place).mapError fun cause =>
          s!"cannot create {shown}: {makeReason cause}"
      | .text _ =>
        let (id, m) := m.makePipe (Text.packed text)
        .ok (table.put r.descriptor (pipeEnd id .reading), m)
    match changed with
    | .error text => .error text
    | .ok (table, m) => redirect m p table rest

/-- The texts that redirections name. -/
def redirectTexts : List Redirect → Script.Expansion (List (Redirect × Bytes))
  | [] => return []
  | r :: rest => do
    let parts := match r.target with
      | .input path | .output path _ | .copyOf path | .text path => path
    let text ← Script.text parts
    return (r, text) :: (← redirectTexts rest)

end PipeShell.Machine
