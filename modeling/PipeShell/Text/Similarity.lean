/-!
# Similar names

Jaro's measure compares two texts by the characters they share at about the
same place and by how many of those stand in another order.  It lies between 0
for texts with nothing in common and 1 for equal ones; here it is a fraction,
so comparing it with a threshold is exact.
-/

set_option autoImplicit false

namespace PipeShell.Text

/-- A fraction with a positive denominator. -/
structure Score where
  part : Nat
  whole : Nat
  deriving DecidableEq, Repr

namespace Score

def zero : Score := ⟨0, 1⟩

def lt (a b : Score) : Bool :=
  a.part * b.whole < b.part * a.whole

end Score

/-- The first place from `low` on, before `high`, that is free and holds `c`. -/
def freeMatch? (c : Char) (low high : Nat) (text : List Char) (taken : List Nat) : Option Nat :=
  (List.range high).find? fun j => low ≤ j && text[j]? = some c && !taken.contains j

/-- For each character of the first text in order, the place of its counterpart in the second.
Counterparts stand at most `reach` places apart, and none serves twice. -/
def counterparts (reach : Nat) (text other : List Char) : List (Nat × Nat) :=
  (text.zipIdx.foldl (fun (pairs : List (Nat × Nat)) (c, i) =>
    match freeMatch? c (i - reach) (min other.length (i + reach + 1)) other
        (pairs.map Prod.snd) with
    | some j => pairs ++ [(i, j)]
    | none => pairs) [])

/-- Jaro's measure of similarity. -/
def similarity (text other : List Char) : Score :=
  let n := text.length
  let k := other.length
  if n = 0 && k = 0 then ⟨1, 1⟩
  else
    let pairs := counterparts (max n k / 2 - 1) text other
    let m := pairs.length
    if m = 0 then .zero
    else
      let here := pairs.map fun pair => text[pair.1]?
      let there := ((List.range k).filter fun j => pairs.any fun pair => pair.2 = j).map
        fun j => other[j]?
      let crossed := (here.zip there).countP (fun pair => pair.1 ≠ pair.2) / 2
      ⟨m * m * k + m * m * n + (m - crossed) * n * k, 3 * n * k * m⟩

/-- The most similar of the names, of equally similar ones the last, if it reaches the threshold. -/
def mostSimilar? (threshold : Score) (text : List Char) (names : List (List Char)) :
    Option (List Char) :=
  (names.foldl (fun (best : Option (List Char × Score)) name =>
    let score := similarity text name
    if score.lt threshold then best
    else match best with
      | some (_, other) => if score.lt other then best else some (name, score)
      | none => some (name, score)) none).map Prod.fst

end PipeShell.Text
