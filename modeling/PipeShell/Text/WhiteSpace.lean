/-!
# White space, words and cuts

A character is white space when it has the Unicode property `White_Space`.
Trimming removes it at the ends of a text, `words` are the maximal runs of
other characters in order, and `cutOnce` splits a text at the first occurrence
of a character.

Everything is defined on lists of characters, where it can be reasoned about,
and lifted to strings.
-/

set_option autoImplicit false

namespace PipeShell.Text

/-! ## The property -/

/-- The closed ranges of code points with the property `White_Space`. -/
def whiteSpaceRanges : List (Nat × Nat) :=
  [(0x09, 0x0D), (0x20, 0x20), (0x85, 0x85), (0xA0, 0xA0), (0x1680, 0x1680), (0x2000, 0x200A),
    (0x2028, 0x2029), (0x202F, 0x202F), (0x205F, 0x205F), (0x3000, 0x3000)]

def isWhiteSpace (c : Char) : Bool :=
  whiteSpaceRanges.any fun range => range.1 ≤ c.toNat && c.toNat ≤ range.2

/-- The property covers what the core library calls white space. -/
theorem isWhiteSpace_of_isWhitespace {c : Char} (h : c.isWhitespace = true) :
    isWhiteSpace c = true := by
  simp only [Char.isWhitespace, Bool.or_eq_true, decide_eq_true_eq] at h
  rcases h with ((rfl | rfl) | rfl) | rfl <;> decide

/-! ## On lists of characters -/

def trimLeftChars (text : List Char) : List Char :=
  text.dropWhile isWhiteSpace

def trimRightChars (text : List Char) : List Char :=
  (text.reverse.dropWhile isWhiteSpace).reverse

def trimChars (text : List Char) : List Char :=
  trimRightChars (trimLeftChars text)

/-- The maximal runs of characters that are not white space. -/
def wordChars (text : List Char) : List (List Char) :=
  (text.splitOnP isWhiteSpace).filter fun word => !word.isEmpty

/-- The text before and after the first `mark`, or nothing when there is none. -/
def cutOnce (mark : Char) (text : List Char) : Option (List Char × List Char) :=
  match text.dropWhile (· ≠ mark) with
  | [] => none
  | _ :: tail => some (text.takeWhile (· ≠ mark), tail)

/-- `needle` stands somewhere in the text. -/
def occursIn (needle : List Char) : List Char → Bool
  | [] => needle.isEmpty
  | c :: rest => needle.isPrefixOf (c :: rest) || occursIn needle rest

/-! ## On strings -/

def trim (text : String) : String :=
  String.ofList (trimChars text.toList)

def trimEnd (text : String) : String :=
  String.ofList (trimRightChars text.toList)

/-- Only white space, or nothing at all. -/
def isBlank (text : String) : Bool :=
  text.toList.all isWhiteSpace

def hasWhiteSpace (text : String) : Bool :=
  text.toList.any isWhiteSpace

def words (text : String) : List String :=
  (wordChars text.toList).map String.ofList

/-- The first word, and the empty text when there is none. -/
def firstWord (text : String) : String :=
  (words text).headD ""

/-- The words with one space between neighbours. -/
def unwords (list : List String) : String :=
  " ".intercalate list

/-- The parts of the text before and after the first `mark`. -/
def splitAtFirst (mark : Char) (text : String) : Option (String × String) :=
  (cutOnce mark text.toList).map fun (head, tail) => (String.ofList head, String.ofList tail)

def contains (text needle : String) : Bool :=
  occursIn needle.toList text.toList

/-- The text without the characters that `drop` names. -/
def without (drop : Char → Bool) (text : String) : String :=
  String.ofList (text.toList.filter fun c => !drop c)

end PipeShell.Text
