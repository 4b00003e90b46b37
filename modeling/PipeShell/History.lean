import PipeShell.Text.WhiteSpace

/-!
# The lines of a session

`History` keeps the lines that were evaluated, oldest first.  A line that ends
in two backslashes asks for completion: the longest earlier line that contains
what was typed, and of lines equally long the latest.
-/

set_option autoImplicit false

namespace PipeShell

structure History where
  entries : List String
  deriving DecidableEq, Inhabited

namespace History

def empty : History := ⟨[]⟩

def push (h : History) (line : String) : History :=
  ⟨h.entries ++ [line]⟩

/-- The line before the latest, which is the one that asks. -/
def previous (h : History) : Option String :=
  h.entries.reverse[1]?

/-- Takes the longer of the best match so far and an older entry, if that one matches. -/
def better (fragment : String) (best : Option String) (entry : String) : Option String :=
  if Text.contains entry fragment && best.all (fun b => entry.utf8ByteSize > b.utf8ByteSize) then
    some entry
  else best

/-- The longest entry that contains the fragment, backslashes apart.  Length is counted in UTF-8
bytes, and the latest of the longest is taken. -/
def complete (h : History) (fragment : String) : Option String :=
  let wanted := Text.without (· = '\\') fragment
  if wanted = "" then none
  else h.entries.reverse.foldl (better wanted) none

/-- The mark that asks for completion. -/
def completionMark : String := "\\\\"

def wantsCompletion (line : String) : Bool :=
  completionMark.toList.reverse.isPrefixOf (Text.trimRightChars line.toList).reverse

end History

end PipeShell
