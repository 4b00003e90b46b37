import PipeShell.Text.Utf8

/-!
# Lines of bytes

A line ends with a line end; the last one of a text may lack it.
-/

set_option autoImplicit false

namespace PipeShell.Text

def newline : UInt8 := 10

def space : UInt8 := 32

def packed (bytes : Bytes) : ByteArray := ⟨bytes.toArray⟩

/-- The lines of a text; what follows the last line end is a line if it is not empty. -/
def linesOf (data : ByteArray) : List Bytes :=
  let pieces := data.data.toList.splitOn newline
  match pieces.getLast? with
  | some [] => pieces.dropLast
  | _ => pieces

def unlines (lines : List Bytes) : ByteArray :=
  packed (lines.flatMap fun line => line ++ [newline])

/-- A text whose last line has its end. -/
def ended (data : ByteArray) : ByteArray :=
  if data.size = 0 || data.data.back? = some newline then data else data.push newline

/-- The number of bytes up to and with the `left`-th line end, and how many line ends are still
wanted after the text. -/
def lineExtent (data : ByteArray) (left : Nat) : Nat × Nat :=
  data.foldl (fun (extent, left) b =>
    if left = 0 then (extent, 0) else (extent + 1, if b = newline then left - 1 else left))
    (0, left)

end PipeShell.Text
