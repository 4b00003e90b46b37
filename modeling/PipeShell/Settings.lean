import PipeShell.Dictionary
import PipeShell.Machine
import PipeShell.Toml.Document
import PipeShell.Toml.Written

/-!
# Settings

What a session hands on to the next: the prompt, the directories it added to
the search list and its aliases.  They are kept in a file (`Settings.render`
and `Settings.parse?`); a file that is not there stands for the defaults, and
so does every setting that a file leaves out.
-/

set_option autoImplicit false

namespace PipeShell

structure Settings where
  prompt : String := "psh$"
  paths : List String := []
  aliases : Dictionary String := .empty
  deriving DecidableEq

namespace Settings

/-- The name of the file where no other is given. -/
def fileName : String := "psh.toml"

/-! ## The text of the file -/

def render (s : Settings) : String :=
  let paths := ", ".intercalate (s.paths.map Toml.writeString)
  let aliases := s.aliases.toList.map fun (name, value) =>
    s!"{Toml.writeKey name} = {Toml.writeString value}\n"
  s!"prompt = {Toml.writeString s.prompt}\npaths = [{paths}]\n\n[aliases]\n{String.join aliases}"

def text? : Toml.Value → Option String
  | .text text => some text
  | _ => none

def texts? : Toml.Value → Option (List String)
  | .list items => items.mapM text?
  | _ => none

/-- The name under which a date counts as a table of one entry. -/
def momentName : String := "$__toml_private_datetime"

def bindings? : Toml.Value → Option (Dictionary String)
  | .table entries => do
    let bindings ← entries.mapM fun (name, value) => (text? value).map fun text => (name, text)
    return Dictionary.ofList bindings
  | .moment text => some (Dictionary.ofList [(momentName, text)])
  | _ => none

/-- A setting as it stands in the table, or its default where the table leaves it out. -/
def setting {α : Type} (table : List (String × Toml.Value)) (name : String)
    (read : Toml.Value → Option α) (default : α) : Option α :=
  match table.lookup name with
  | none => some default
  | some value => read value

/-- The settings in a table.  Names that are no settings are passed over. -/
def ofTable? (table : List (String × Toml.Value)) : Option Settings := do
  let defaults : Settings := {}
  let prompt ← setting table "prompt" text? defaults.prompt
  let paths ← setting table "paths" texts? defaults.paths
  let aliases ← setting table "aliases" bindings? defaults.aliases
  return { prompt, paths, aliases }

def parse? (text : String) : Option Settings := do
  let table ← Toml.parse? text
  ofTable? table

/-! ## The file -/

/-- The settings in the file at a path.  Messages show the path as text. -/
def loadAt (m : Machine) (path : Bytes) : Except SettingsError Settings :=
  let shown := Text.decodeLossy path
  match m.readAt path with
  | .error cause => if cause = .system .noEntry then .ok {} else .error (.file shown cause)
  | .ok content =>
    match String.fromUTF8? content with
    | none => .error (.file shown .notUtf8)
    | some text =>
      match parse? text with
      | none => .error .malformed
      | some settings => .ok settings

def saveAt (s : Settings) (m : Machine) (path : Bytes) : Except SettingsError Machine :=
  match m.writeAt path (s.render).toUTF8 with
  | .error cause => .error (.file (Text.decodeLossy path) cause)
  | .ok m => .ok m

def load (m : Machine) (path : String) : Except SettingsError Settings :=
  loadAt m (Text.encode path)

def save (s : Settings) (m : Machine) (path : String) : Except SettingsError Machine :=
  s.saveAt m (Text.encode path)

end Settings

end PipeShell
