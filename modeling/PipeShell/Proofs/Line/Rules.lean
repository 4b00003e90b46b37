import Mathlib.Data.List.Chain
import PipeShell.Line

/-!
# What the rules ask of a text

`violation?` looks for the first rule that a text breaks.  Here each rule is said without the way
in which it is looked for, and a text that breaks none of them is one that `Obeys` all of them.
-/

set_option autoImplicit false

namespace PipeShell.Line

/-- Not both characters are pipes. -/
def Apart (a b : Char) : Prop := ¬ (a = pipeToken ∧ b = pipeToken)

/-- A pipe at one place and a redirection at another, as the rules want them. -/
def Clear (text : List Char) : Prop :=
  ∀ pipe redirect, text[pipe]? = some pipeToken →
    (text.idxOf? inputToken = some redirect ∨ text.idxOf? outputToken = some redirect) →
      pipe + 1 < redirect

/-- The token is neither the first nor the last character. -/
def Inside (token : Char) (text : List Char) : Prop :=
  text.head? ≠ some token ∧ text.getLast? ≠ some token

/-- Everything the rules ask of a text. -/
structure Obeys (text : List Char) : Prop where
  written : text ≠ []
  inputOnce : text.count inputToken ≤ 1
  outputOnce : text.count outputToken ≤ 1
  apart : text.IsChain Apart
  ordered : ∀ input output, text.idxOf? inputToken = some input →
    text.idxOf? outputToken = some output → input ≤ output
  clear : Clear text
  outputInside : Inside outputToken text
  inputInside : Inside inputToken (withoutToken outputToken text)
  pipeInside : Inside pipeToken (withoutToken inputToken (withoutToken outputToken text))
  commanded : withoutToken pipeToken (withoutToken inputToken (withoutToken outputToken text)) ≠ []

/-! ## Single rules -/

theorem mem_positions {token : Char} {text : List Char} {place : Nat} :
    place ∈ positions token text ↔ text[place]? = some token := by
  simp only [positions, List.mem_map, List.mem_filter, decide_eq_true_eq, Prod.exists,
    List.mem_zipIdx_iff_getElem?]
  constructor
  · rintro ⟨c, index, ⟨found, rfl⟩, rfl⟩
    exact found
  · intro found
    exact ⟨token, place, ⟨found, rfl⟩, rfl⟩

theorem duplicate?_eq_none_iff {token : Char} {text : List Char} :
    duplicate? token text = none ↔ text.count token ≤ 1 := by
  simp [duplicate?]

theorem any_adjacent_eq_false_iff {text : List Char} :
    (text.zip text.tail).any (· = (pipeToken, pipeToken)) = false ↔ text.IsChain Apart := by
  induction text with
  | nil => simp
  | cons a rest ih =>
      cases rest with
      | nil => simp
      | cons b rest =>
          rw [List.isChain_cons_cons, ← ih]
          simp [Apart]

theorem adjacentPipes?_eq_none_iff {text : List Char} :
    adjacentPipes? text = none ↔ text.IsChain Apart := by
  rw [← any_adjacent_eq_false_iff, adjacentPipes?]
  split
  · next found => simp only [found, reduceCtorEq]
  · next absent => simp only [Bool.eq_false_iff.mpr absent]

theorem misordered?_eq_none_iff {text : List Char} :
    misordered? text = none ↔ ∀ input output, text.idxOf? inputToken = some input →
      text.idxOf? outputToken = some output → input ≤ output := by
  unfold misordered?
  cases text.idxOf? inputToken <;> cases text.idxOf? outputToken <;> simp

theorem clash?_eq_none_iff {pipe redirect : Nat} (different : pipe ≠ redirect) :
    clash? pipe redirect = none ↔ pipe + 1 < redirect := by
  unfold clash?
  split
  · simp only [reduceCtorEq, false_iff]
    omega
  · split
    · simp only [reduceCtorEq, false_iff]
      omega
    · simp only [true_iff]
      omega

theorem getElem?_of_idxOf? {token : Char} {text : List Char} {place : Nat}
    (found : text.idxOf? token = some place) : text[place]? = some token := by
  obtain ⟨lt, same, _⟩ := List.idxOf?_eq_some_iff.mp found
  rw [List.getElem?_eq_getElem lt, same]

/-- The redirections that a pipe is compared with are the first of each kind. -/
theorem clashing?_eq_none_iff {text : List Char} : clashing? text = none ↔ Clear text := by
  have redirects : ∀ redirect,
      redirect ∈ (text.idxOf? inputToken).toList ++ (text.idxOf? outputToken).toList ↔
        (text.idxOf? inputToken = some redirect ∨ text.idxOf? outputToken = some redirect) := by
    intro redirect
    simp only [List.mem_append, Option.mem_toList]
  simp only [clashing?, List.findSome?_eq_none_iff, mem_positions, redirects, Clear]
  constructor
  · intro free pipe redirect piped redirected
    refine (clash?_eq_none_iff ?_).mp (free pipe piped redirect redirected)
    rintro rfl
    rcases redirected with found | found
    · simp [getElem?_of_idxOf? found, inputToken, pipeToken] at piped
    · simp [getElem?_of_idxOf? found, outputToken, pipeToken] at piped
  · intro clear pipe piped redirect redirected
    have before := clear pipe redirect piped redirected
    exact (clash?_eq_none_iff (by omega)).mpr before

theorem dangling?_eq_none_iff {token : Char} {text : List Char} :
    dangling? token text = none ↔ Inside token text := by
  simp [dangling?, Inside]

/-! ## All rules -/

theorem orElse_eq_none_iff {α : Type} {first second : Option α} :
    (first <|> second) = none ↔ first = none ∧ second = none := by
  cases first <;> simp

theorem dangles?_eq_none_iff {text : List Char} :
    dangles? text = none ↔
      Inside outputToken text ∧ Inside inputToken (withoutToken outputToken text) ∧
        Inside pipeToken (withoutToken inputToken (withoutToken outputToken text)) ∧
        withoutToken pipeToken (withoutToken inputToken (withoutToken outputToken text)) ≠ [] := by
  simp only [dangles?, orElse_eq_none_iff, dangling?_eq_none_iff]
  simp

theorem violation?_eq_none_iff {text : List Char} : violation? text = none ↔ Obeys text := by
  simp only [violation?, orElse_eq_none_iff, duplicate?_eq_none_iff, adjacentPipes?_eq_none_iff,
    misordered?_eq_none_iff, clashing?_eq_none_iff, dangles?_eq_none_iff]
  constructor
  · rintro ⟨written, inputOnce, outputOnce, apart, ordered, clear, output, input, pipe, commanded⟩
    exact ⟨by simpa using written, inputOnce, outputOnce, apart, ordered, clear, output, input,
      pipe, commanded⟩
  · intro h
    exact ⟨by simp [h.written], h.inputOnce, h.outputOnce, h.apart, h.ordered, h.clear,
      h.outputInside, h.inputInside, h.pipeInside, h.commanded⟩

end PipeShell.Line
