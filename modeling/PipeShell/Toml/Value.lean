import PipeShell.Toml.Scalar

/-!
# Values and tables

A `Value` is what a key is bound to.  While a document is being read its tables
are `Item`s, which remember how each table came to be (`Origin`): a table may
be added to only in the way in which it was begun.
-/

set_option autoImplicit false

namespace PipeShell.Toml

inductive Value where
  | text (text : String)
  /-- A number or a truth value. -/
  | plain
  | moment (text : String)
  | list (items : List Value)
  | table (entries : List (String × Value))

/-- How a table came to be. -/
inductive Origin where
  /-- By a header, or as the whole document. -/
  | header
  /-- On the way to a table that a header names. -/
  | implied
  /-- On the way to a key with dots. -/
  | dotted
  deriving DecidableEq

inductive Item where
  | value (value : Value)
  | table (origin : Origin) (entries : List (String × Item))
  /-- Tables that share one name.  The last of them is the one that is added to. -/
  | tables (elements : List (List (String × Item)))

abbrev Entries := List (String × Item)

namespace Entries

def without (entries : Entries) (key : String) : Entries :=
  entries.filter fun entry => entry.1 ≠ key

/-- Binds a key that may be bound already. -/
def put (entries : Entries) (key : String) (item : Item) : Entries :=
  without entries key ++ [(key, item)]

variable {α : Type}

/-- Changes the table at the end of a path.  Tables that are missing on the way are made; `way` says
as what.  A path of dotted keys does not pass through a table that has a header of its own. -/
def within (way : Origin) (change : Origin → Entries → Option (α × Entries)) :
    List String → Origin → Entries → Option (α × Entries)
  | [], origin, entries => change origin entries
  | key :: path, _, entries =>
    match entries.lookup key with
    | none => do
      let (answer, inner) ← within way change path way []
      return (answer, put entries key (.table way inner))
    | some (.table origin inner) =>
      if way = .dotted && origin = .header then none
      else do
        let (answer, inner) ← within way change path origin inner
        return (answer, put entries key (.table origin inner))
    | some (.tables elements) => do
      let (answer, inner) ← within way change path .header (elements.getLastD [])
      return (answer, put entries key (.tables (elements.dropLast ++ [inner])))
    | some (.value _) => none

/-- Binds the last of the keys, which must be new, in the table that the others lead to.  That table
is one that dotted keys made, if there are others. -/
def bind (entries : Entries) (above : List String) (last : String) (value : Value) :
    Option Entries := do
  let (_, entries) ← within .dotted (fun origin inner =>
    if decide (origin = .dotted) = above.isEmpty then none
    else if (inner.lookup last).isSome then none
    else some ((), inner ++ [(last, .value value)])) above .header entries
  return entries

end Entries

/-! ## What an item stands for -/

mutual

def Item.toValue : Item → Value
  | .value value => value
  | .table _ entries => .table (valuesOf entries)
  | .tables elements => .list (tablesOf elements)

def valuesOf : List (String × Item) → List (String × Value)
  | [] => []
  | (key, item) :: rest => (key, item.toValue) :: valuesOf rest

def tablesOf : List (List (String × Item)) → List Value
  | [] => []
  | entries :: rest => .table (valuesOf entries) :: tablesOf rest

end

/-! ## Reading a value -/

namespace Reader

/-- The items of an array.  A comma may follow the last. -/
def arrayItems (item : Reader Value) : Reader Value := do
  char '['
  let items ← separated (do
    gap
    let value ← item
    gap
    return value) (char ',')
  if items.isEmpty then pure () else do
    let _ ← optional (char ',')
  gap
  char ']'
  return .list items

/-- A table written on one line. -/
def inlineTable (item : Reader Value) : Reader Value := do
  char '\x7b'
  let pairs ← separated (do
    let path ← key
    char '='
    spaces
    let value ← item
    spaces
    return (path, value)) (char ',')
  spaces
  char '\x7d'
  let entries ← pairs.foldlM (fun entries (path, value) =>
    StateT.lift (Entries.bind entries path.dropLast (path.getLastD "") value)) ([] : Entries)
  return .table (valuesOf entries)

def scalar : Reader Value :=
  Value.text <$> string
    <|> Value.moment <$> moment
    <|> (do
      specialNumber <|> decimal <|> integer <|> truth
      return .plain)

/-- A value in which arrays and tables are nested at most `depth` deep. -/
def value : Nat → Reader Value
  | 0 => scalar
  | depth + 1 => arrayItems (value depth) <|> inlineTable (value depth) <|> scalar

end Reader

end PipeShell.Toml
