import PipeShell.Toml.Value

/-!
# Documents

A document is a list of statements, one a line: a header begins a table, and a
binding belongs to the table begun last.  `Draft` is a document of which some
statements have been read; the table begun last stands apart from the others
until it is complete.
-/

set_option autoImplicit false

namespace PipeShell.Toml

inductive Statement where
  | binding (above : List String) (last : String) (value : Value)
  | header (above : List String) (last : String)
  /-- Begins one of several tables of one name. -/
  | elementHeader (above : List String) (last : String)

/-- Where the table begun last belongs. -/
inductive Target where
  | whole
  | table (above : List String) (last : String)
  | element (above : List String) (last : String)

structure Draft where
  root : Entries
  target : Target
  current : Entries

namespace Draft

def empty : Draft := { root := [], target := .whole, current := [] }

/-- Puts the table begun last in its place. -/
def complete (d : Draft) : Option Entries :=
  match d.target with
  | .whole => some d.current
  | .table above last => do
    let (_, root) ← Entries.within .implied (fun _ inner =>
      some ((), Entries.put inner last (.table .header d.current))) above .header d.root
    return root
  | .element above last => do
    let (_, root) ← Entries.within .implied (fun _ inner =>
      match inner.lookup last with
      | some (.tables elements) =>
        some ((), Entries.put inner last (.tables (elements ++ [d.current])))
      | none => some ((), Entries.put inner last (.tables [d.current]))
      | some _ => none) above .header d.root
    return root

/-- Begins a table.  Its name is new, or that of a table which was only implied so far. -/
def beginTable (root : Entries) (above : List String) (last : String) : Option Draft := do
  let (current, root) ← Entries.within .implied (fun _ inner =>
    match inner.lookup last with
    | none => some ([], inner)
    | some (.table .implied entries) => some (entries, Entries.without inner last)
    | some _ => none) above .header root
  return { root, target := .table above last, current }

/-- Begins one of several tables.  Its name is new, or that of other such tables. -/
def beginElement (root : Entries) (above : List String) (last : String) : Option Draft := do
  let (_, root) ← Entries.within .implied (fun _ inner =>
    match inner.lookup last with
    | none | some (.tables _) => some ((), inner)
    | some _ => none) above .header root
  return { root, target := .element above last, current := [] }

def add (d : Draft) : Statement → Option Draft
  | .binding above last value => do
    let current ← d.current.bind above last value
    return { d with current }
  | .header above last => do
    let root ← d.complete
    beginTable root above last
  | .elementHeader above last => do
    let root ← d.complete
    beginElement root above last

end Draft

/-! ## Statements -/

namespace Reader

def splitKey : Reader (List String × String) := do
  let path ← key
  return (path.dropLast, path.getLastD "")

def headerLine : Reader Statement :=
  (do
    chars ['[', '[']
    let (above, last) ← splitKey
    chars [']', ']']
    lineEnd
    return .elementHeader above last) <|> (do
    char '['
    let (above, last) ← splitKey
    char ']'
    lineEnd
    return .header above last)

def bindingLine : Reader Statement := do
  let (above, last) ← splitKey
  char '='
  spaces
  let value ← value (depthLimit - 1)
  lineEnd
  return .binding above last value

/-- A statement with the blank and comment lines before it. -/
def statement : Reader Statement := do
  gap
  headerLine <|> bindingLine

def byteOrderMark : Char := Char.ofNat 0xFEFF

def document : Reader (List Statement) := do
  let _ ← optional (char byteOrderMark)
  let statements ← many statement
  gap
  let _ ← optional comment
  ending
  return statements

end Reader

/-- The table that a text describes. -/
def parse? (text : String) : Option (List (String × Value)) := do
  let (statements, _) ← Reader.document text.toList
  let draft ← statements.foldlM Draft.add Draft.empty
  let entries ← draft.complete
  return valuesOf entries

end PipeShell.Toml
