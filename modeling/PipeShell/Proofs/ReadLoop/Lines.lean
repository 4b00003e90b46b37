import Mathlib.Data.List.TakeWhile
import PipeShell.Proofs.History.Completion
import PipeShell.ReadLoop
import PipeShell.Text.Lines

/-!
# The lines of an input

The loop takes its input line by line (`ReadLoop.nextLine`).  `inputLines` says at once what all of
these lines are, and taking one leaves the others (`inputLines_of_nextLine`).  `choose` says on
lines what `ReadLoop.resolve` does on bytes (`choose_inputLines`), and `expected` which lines are
evaluated when it is known how each evaluation ends.
-/

set_option autoImplicit false

namespace PipeShell.ReadLoop

/-! ## Lines -/

/-- The text of a line, whatever its bytes are. -/
def lineOf (piece : Bytes) : String :=
  String.ofList (withoutLineEnd (Text.lossyChars piece))

/-- The lines of the input.  What follows the last line feed is a line if it is not empty. -/
def inputLines (input : Bytes) : List String :=
  (Text.linesOf (Text.packed input)).map lineOf

theorem linesOf_packed (input : Bytes) : Text.linesOf (Text.packed input) =
    match (input.splitOn lineFeed).getLast? with
    | some [] => (input.splitOn lineFeed).dropLast
    | _ => input.splitOn lineFeed := by
  rfl

theorem inputLines_nil : inputLines [] = [] := by decide

theorem inputLines_of_notMem {input : Bytes} (written : input ≠ []) (alone : lineFeed ∉ input) :
    inputLines input = [lineOf input] := by
  rw [inputLines, linesOf_packed, List.splitOn_eq_singleton alone, List.getLast?_singleton]
  split
  · next empty => exact absurd (Option.some.inj empty) written
  · rfl

theorem inputLines_append_cons {head : Bytes} (alone : lineFeed ∉ head) (rest : Bytes) :
    inputLines (head ++ lineFeed :: rest) = lineOf head :: inputLines rest := by
  have others := List.splitOn_ne_nil lineFeed rest
  rw [inputLines, inputLines, linesOf_packed, linesOf_packed,
    List.splitOn_append_cons_self_of_not_mem alone, List.getLast?_cons_of_ne_nil others,
    List.dropLast_cons_of_ne_nil others]
  split <;> rfl

theorem inputLines_of_ended {input : Bytes} (ended : nextLine input = none) :
    inputLines input = [] := by
  rw [nextLine] at ended
  split at ended
  · next empty => rw [empty, inputLines_nil]
  · cases ended

/-- Taking a line leaves the others. -/
theorem inputLines_of_nextLine {input rest : Bytes} {line : String}
    (taken : nextLine input = some (line, rest)) : inputLines input = line :: inputLines rest := by
  rw [nextLine] at taken
  split at taken
  · cases taken
  · next written =>
      dsimp only at taken
      obtain ⟨rfl, rfl⟩ := Prod.mk.inj (Option.some.inj taken)
      have alone : lineFeed ∉ input.takeWhile (· ≠ lineFeed) := by
        intro member
        simpa using List.mem_takeWhile_imp member
      have cut := List.takeWhile_append_dropWhile (p := (· ≠ lineFeed)) (l := input)
      generalize input.takeWhile (· ≠ lineFeed) = head at alone cut ⊢
      cases behind : input.dropWhile (· ≠ lineFeed) with
      | nil =>
          rw [behind, List.append_nil] at cut
          subst cut
          rw [List.drop_eq_nil_of_le (Nat.le_succ _), inputLines_nil]
          exact inputLines_of_notMem written alone
      | cons first behind' =>
          have mark : first = lineFeed := by
            have head := List.head?_dropWhile_not (· ≠ lineFeed) input
            rw [behind] at head
            simpa using head
          rw [behind, mark] at cut
          rw [← cut, inputLines_append_cons alone, List.drop_length_add_append, List.drop_one,
            List.tail_cons]
          rfl

/-! ## Lines to evaluate -/

/-- The line that a line of input stands for, if it stands for one, and the lines behind it.  A line
that asks for completion and has a match takes the next line, whatever that is, for the answer. -/
def choose (history : History) (line : String) (rest : List String) :
    Option String × List String :=
  if History.wantsCompletion line then
    match history.complete (Text.trimEnd line) with
    | none => (none, rest)
    | some candidate => (if rest.head? = some "" then some candidate else none, rest.tail)
  else (some line, rest)

theorem length_lt_of_choose {history : History} {line : String} {rest others : List String}
    {chosen : Option String} (outcome : choose history line rest = (chosen, others)) :
    others.length < (line :: rest).length := by
  have shorter : rest.tail.length ≤ rest.length := by
    rw [List.length_tail]
    exact Nat.sub_le _ _
  unfold choose at outcome
  rw [List.length_cons, Nat.lt_succ_iff]
  split at outcome
  · split at outcome <;> obtain ⟨-, rfl⟩ := Prod.mk.inj outcome
    · exact Nat.le_refl _
    · exact shorter
  · obtain ⟨-, rfl⟩ := Prod.mk.inj outcome
    exact Nat.le_refl _

/-- Taking lines as bytes comes to the same as taking them from the list of all lines. -/
theorem choose_inputLines (history : History) (line : String) (rest : Bytes) :
    choose history line (inputLines rest) =
      ((resolve history line rest).line, inputLines (resolve history line rest).rest) := by
  unfold choose resolve
  split
  · cases history.complete (Text.trimEnd line) with
    | none => rfl
    | some candidate =>
        cases taken : nextLine rest with
        | none => simp [inputLines_of_ended taken]
        | some taken' =>
            obtain ⟨answer, rest'⟩ := taken'
            rw [inputLines_of_nextLine taken]
            by_cases accepted : answer = "" <;> simp [accepted]
  · rfl

/-- The lines that are evaluated after `past` when these are the lines of the input, where `endings`
says of each evaluation in turn whether the loop ends with it. -/
def expected (past lines : List String) (endings : List (Option Ending)) : List String :=
  match lines with
  | [] => []
  | line :: rest =>
    match _ : choose ⟨past⟩ line rest with
    | (none, others) => expected past others endings
    | (some chosen, others) =>
      chosen :: match endings with
        | none :: endings => expected (past ++ [chosen]) others endings
        | _ => []
termination_by lines.length
decreasing_by
  all_goals exact length_lt_of_choose ‹_›

section Expected

variable {past rest others : List String} {line chosen : String}

theorem expected_nil (past : List String) (endings : List (Option Ending)) :
    expected past [] endings = [] := by
  rw [expected]

theorem expected_of_none (outcome : choose ⟨past⟩ line rest = (none, others))
    (endings : List (Option Ending)) :
    expected past (line :: rest) endings = expected past others endings := by
  rw [expected]
  split
  · next found =>
      rw [outcome] at found
      obtain ⟨-, rfl⟩ := Prod.mk.inj found
      rfl
  · next found =>
      rw [outcome] at found
      cases found

/-- The first evaluation is that of the chosen line.  If the loop goes on, the line belongs to the
past of the others. -/
theorem expected_of_some (outcome : choose ⟨past⟩ line rest = (some chosen, others))
    (ending : Option Ending) (endings : List (Option Ending)) :
    expected past (line :: rest) (ending :: endings) =
      chosen :: if ending = none then expected (past ++ [chosen]) others endings else [] := by
  rw [expected]
  split
  · next found =>
      rw [outcome] at found
      cases found
  · next found =>
      rw [outcome] at found
      obtain ⟨same, rfl⟩ := Prod.mk.inj found
      obtain rfl := Option.some.inj same
      cases ending <;> rfl

end Expected

/-! ## Completion -/

/-- No line that is chosen asks for completion, if none did before. -/
theorem wantsCompletion_of_choose {past rest others : List String} {line chosen : String}
    (proper : ∀ earlier ∈ past, History.wantsCompletion earlier = false)
    (outcome : choose ⟨past⟩ line rest = (some chosen, others)) :
    History.wantsCompletion chosen = false := by
  unfold choose at outcome
  split at outcome
  · split at outcome
    · cases outcome
    · next candidate found =>
        obtain ⟨accepted, -⟩ := Prod.mk.inj outcome
        split at accepted
        · obtain rfl := Option.some.inj accepted
          exact proper _ (History.of_complete found).1
        · cases accepted
  · next plain =>
      obtain ⟨same, -⟩ := Prod.mk.inj outcome
      obtain rfl := Option.some.inj same
      exact Bool.eq_false_iff.mpr plain

end PipeShell.ReadLoop
