import PipeShell.Dictionary
import PipeShell.Error
import PipeShell.Text.WhiteSpace

/-!
# Aliases

An alias binds a name to the text that stands for it.  Looking up a command
follows first words: the alias of `ll` may begin with `ls`, which may itself be
an alias.  `AliasTable.add` refuses a definition through which first words
would lead back to the name being defined, so following them ends.

Both walks below keep the names they have passed.  They end on every table,
also on one that does hold a cycle, because each step passes a new name of the
table (`unseen_lt`).
-/

set_option autoImplicit false

namespace PipeShell

structure AliasTable where
  bindings : Dictionary String
  deriving DecidableEq, Inhabited

namespace AliasTable

def empty : AliasTable := ⟨.empty⟩

def get? (t : AliasTable) (name : String) : Option String :=
  t.bindings.get? name

def toList (t : AliasTable) : List (String × String) :=
  t.bindings.toList

/-! ## Walks -/

/-- How many names of the table are not among those seen. -/
def unseen (t : AliasTable) (seen : List String) : Nat :=
  (t.bindings.keys.filter fun key => !seen.contains key).length

/-- Seeing a new name of the table leaves fewer unseen. -/
theorem unseen_lt {t : AliasTable} {seen : List String} {name value : String}
    (hget : t.get? name = some value) (hnew : ¬ name ∈ seen) :
    t.unseen (name :: seen) < t.unseen seen := by
  have hmem : name ∈ t.bindings.keys := Dictionary.mem_keys_of_get? hget
  have hdrop : ∀ keys : List String, (keys.filter fun key => !(name :: seen).contains key) =
      (keys.filter fun key => !seen.contains key).filter (· ≠ name) := by
    intro keys
    rw [List.filter_filter]
    refine List.filter_congr fun key _ => ?_
    by_cases h : key = name <;> simp [h]
  unfold unseen
  rw [hdrop]
  refine List.length_filter_lt_length_iff_exists.2 ⟨name, List.mem_filter.2 ⟨hmem, ?_⟩, by simp⟩
  simpa using hnew

/-- Following first words from `word` leads to `target`. -/
def reaches (t : AliasTable) (target : String) (seen : List String) (word : String) : Bool :=
  if word = target then true
  else if _ : word ∈ seen then false
  else match _ : t.get? word with
    | none => false
    | some value => reaches t target (word :: seen) (Text.firstWord value)
termination_by t.unseen seen
decreasing_by exact unseen_lt ‹_› ‹_›

/-- The words a command stands for, and the word at which expansion had to stop because it had
been expanded before. -/
structure Expansion where
  words : List String
  loopAt : Option String := none
  deriving DecidableEq, Repr

/-- An expansion that had to stop is worth a warning. -/
def Expansion.warnings (e : Expansion) : List Warning :=
  e.loopAt.toList.map Warning.aliasLoop

/-- Replaces the first word by the words of its alias until it is no alias. -/
def follow (t : AliasTable) (seen : List String) : List String → Expansion
  | [] => { words := [] }
  | word :: rest =>
    match _ : t.get? word with
    | none => { words := word :: rest }
    | some value =>
      if _ : word ∈ seen then { words := word :: rest, loopAt := some word }
      else follow t (word :: seen) (Text.words value ++ rest)
termination_by t.unseen seen
decreasing_by exact unseen_lt ‹_› ‹_›

/-! ## Operations -/

def isValidName (name : String) : Bool :=
  name ≠ "" && !Text.hasWhiteSpace name

/-- Binds `name` to the trimmed value, in place of an older binding. -/
def add (t : AliasTable) (name value : String) : Except BuiltinError AliasTable :=
  if !isValidName name then .error .invalidAliasName
  else if Text.isBlank value then .error .emptyAliasValue
  else if t.reaches name [] (Text.firstWord value) then .error (.aliasCycle name)
  else .ok ⟨t.bindings.insert name (Text.trim value)⟩

/-- The table without `name`, or nothing when it is not bound. -/
def remove (t : AliasTable) (name : String) : Option AliasTable :=
  match t.get? name with
  | none => none
  | some _ => some ⟨t.bindings.erase name⟩

def expansion (t : AliasTable) (name : String) : Expansion :=
  t.follow [] [name]

/-- What stands for `name`: its words with a single space between them. -/
def expand (t : AliasTable) (name : String) : String :=
  Text.unwords (t.expansion name).words

end AliasTable

end PipeShell
