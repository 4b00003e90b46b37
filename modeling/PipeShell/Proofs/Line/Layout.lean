import PipeShell.Line
import PipeShell.Proofs.Text

/-!
# Layouts

A `Layout` is a text by its tokens: what stands before, between and after them, untouched.  Its
`text` puts the tokens back.  Every text has one layout that is read off it in the order in which
lines are cut, and a layout whose pieces hold no token is read back from its text.
-/

set_option autoImplicit false

namespace PipeShell.Line

open Text

structure Layout where
  stages : List (List Char)
  input : Option (List Char)
  output : Option (List Char)
  deriving DecidableEq, Repr

/-- No token stands in the text. -/
structure Plain (text : List Char) : Prop where
  pipe : pipeToken ∉ text
  input : inputToken ∉ text
  output : outputToken ∉ text

theorem Plain.append {left right : List Char} (first : Plain left) (second : Plain right) :
    Plain (left ++ right) where
  pipe member := (List.mem_append.mp member).elim first.pipe second.pipe
  input member := (List.mem_append.mp member).elim first.input second.input
  output member := (List.mem_append.mp member).elim first.output second.output

/-- A token and what follows it, where anything does. -/
def marked (token : Char) : Option (List Char) → List Char
  | none => []
  | some piece => token :: piece

/-- The text before the first `token`, and the text behind it. -/
def cutAt (token : Char) (text : List Char) : List Char × Option (List Char) :=
  match cutOnce token text with
  | none => (text, none)
  | some (head, tail) => (head, some tail)

namespace Layout

def text (l : Layout) : List Char :=
  [pipeToken].intercalate l.stages ++ marked inputToken l.input ++ marked outputToken l.output

def pieces (l : Layout) : List (List Char) :=
  l.stages ++ l.input.toList ++ l.output.toList

def map (f : List Char → List Char) (l : Layout) : Layout :=
  { stages := l.stages.map f, input := l.input.map f, output := l.output.map f }

/-- Output is cut off first, then input; the rest falls into stages. -/
def read (text : List Char) : Layout :=
  let (rest, output) := cutAt outputToken text
  let (rest, input) := cutAt inputToken rest
  { stages := rest.splitOn pipeToken, input, output }

end Layout

/-! ## One cut -/

theorem append_marked_cutAt (token : Char) (text : List Char) :
    (cutAt token text).1 ++ marked token (cutAt token text).2 = text := by
  unfold cutAt
  split
  · simp [marked]
  · next head tail found => exact (cutOnce_eq_some_iff.mp found).1.symm

theorem notMem_cutAt (token : Char) (text : List Char) : token ∉ (cutAt token text).1 := by
  unfold cutAt
  split
  · next absent => exact cutOnce_eq_none_iff.mp absent
  · next head tail found => exact (cutOnce_eq_some_iff.mp found).2

theorem cutAt_append_marked {token : Char} {head : List Char} (absent : token ∉ head)
    (tail : Option (List Char)) : cutAt token (head ++ marked token tail) = (head, tail) := by
  unfold cutAt
  cases tail with
  | none =>
      rw [marked, List.append_nil, cutOnce_eq_none_iff.mpr absent]
  | some piece =>
      rw [marked, cutOnce_eq_some_iff.mpr ⟨rfl, absent⟩]

theorem mem_marked {c token : Char} {tail : Option (List Char)} (member : c ∈ marked token tail) :
    c = token ∨ ∃ piece ∈ tail, c ∈ piece := by
  cases tail with
  | none => simp [marked] at member
  | some piece =>
      rcases List.mem_cons.mp member with same | member
      · exact Or.inl same
      · exact Or.inr ⟨piece, rfl, member⟩

/-! ## Stages -/

/-- What the stages do not hold, the text made of them holds only at its pipes. -/
theorem notMem_intercalate {c : Char} {stages : List (List Char)} (different : c ≠ pipeToken)
    (absent : ∀ stage ∈ stages, c ∉ stage) : c ∉ [pipeToken].intercalate stages := by
  intro member
  rcases mem_intercalate member with same | ⟨stage, inside, present⟩
  · exact different same
  · exact absent stage inside present

theorem mem_intercalate_of_mem {c : Char} {stage : List Char} {stages : List (List Char)}
    (inside : stage ∈ stages) (present : c ∈ stage) : c ∈ [pipeToken].intercalate stages := by
  induction stages with
  | nil => cases inside
  | cons first others ih =>
      cases others with
      | nil =>
          rw [List.mem_singleton] at inside
          subst inside
          rw [List.intercalate_singleton]
          exact present
      | cons second others =>
          rw [List.intercalate_cons_cons, List.append_assoc, List.mem_append]
          rcases List.mem_cons.mp inside with rfl | inside
          · exact Or.inl present
          · exact Or.inr (List.mem_cons_of_mem _ (ih inside))

/-! ## Reading -/

namespace Layout

theorem stage_mem_pieces {l : Layout} {piece : List Char} (member : piece ∈ l.stages) :
    piece ∈ l.pieces :=
  List.mem_append_left _ (List.mem_append_left _ member)

theorem input_mem_pieces {l : Layout} {piece : List Char} (member : piece ∈ l.input) :
    piece ∈ l.pieces :=
  List.mem_append_left _ (List.mem_append_right _ (Option.mem_toList.mpr member))

theorem output_mem_pieces {l : Layout} {piece : List Char} (member : piece ∈ l.output) :
    piece ∈ l.pieces :=
  List.mem_append_right _ (Option.mem_toList.mpr member)

theorem pieces_map (f : List Char → List Char) (l : Layout) :
    (l.map f).pieces = l.pieces.map f := by
  obtain ⟨stages, input, output⟩ := l
  cases input <;> cases output <;> simp [pieces, map]

/-- The parts that `read` takes a text into, one at a time. -/
theorem read_eq (text : List Char) :
    read text =
      { stages := (cutAt inputToken (cutAt outputToken text).1).1.splitOn pipeToken
        input := (cutAt inputToken (cutAt outputToken text).1).2
        output := (cutAt outputToken text).2 } := rfl

theorem stages_read_ne_nil (text : List Char) : (read text).stages ≠ [] := by
  rw [read_eq]
  exact List.splitOn_ne_nil pipeToken _

/-- Reading loses nothing. -/
@[simp]
theorem text_read (text : List Char) : (read text).text = text := by
  rw [read_eq, Layout.text, List.intercalate_splitOn, append_marked_cutAt, append_marked_cutAt]

theorem subset_text {l : Layout} {piece : List Char} (member : piece ∈ l.pieces) :
    piece ⊆ l.text := by
  intro c present
  rw [text, List.mem_append, List.mem_append]
  rcases List.mem_append.mp member with member | member
  · rcases List.mem_append.mp member with member | member
    · exact .inl (.inl (mem_intercalate_of_mem member present))
    · rw [Option.mem_toList] at member
      rw [show l.input = some piece from member]
      exact .inl (.inr (List.mem_cons_of_mem _ present))
  · rw [Option.mem_toList] at member
    rw [show l.output = some piece from member]
    exact .inr (List.mem_cons_of_mem _ present)

/-- A layout is read back from its text when no piece holds a token. -/
theorem read_text {l : Layout} (staged : l.stages ≠ [])
    (plain : ∀ piece ∈ l.pieces, Plain piece) : read l.text = l := by
  have unwritten : outputToken ∉ [pipeToken].intercalate l.stages ++ marked inputToken l.input := by
    rw [List.mem_append, not_or]
    constructor
    · exact notMem_intercalate (by decide) fun stage member =>
        (plain stage (stage_mem_pieces member)).output
    · intro member
      rcases mem_marked member with same | ⟨piece, given, present⟩
      · exact absurd same (by decide)
      · exact (plain piece (input_mem_pieces given)).output present
  have unread : inputToken ∉ [pipeToken].intercalate l.stages :=
    notMem_intercalate (by decide) fun stage member => (plain stage (stage_mem_pieces member)).input
  rw [read_eq, Layout.text, cutAt_append_marked unwritten, cutAt_append_marked unread,
    List.splitOn_intercalate pipeToken
      (fun stage member => (plain stage (stage_mem_pieces member)).pipe) staged]

/-- Whatever a text holds, the stages read off it hold no token and the input is before any output. -/
theorem plain_stages_read (text : List Char) : ∀ stage ∈ (read text).stages, Plain stage := by
  intro stage member
  rw [read_eq] at member
  have whole : ∀ c ∈ stage, c ∈ (cutAt inputToken (cutAt outputToken text).1).1 := by
    intro c present
    have joined := mem_intercalate_of_mem member present
    rwa [List.intercalate_splitOn] at joined
  have inside := append_marked_cutAt inputToken (cutAt outputToken text).1
  refine ⟨notMem_of_mem_splitOn member, fun present => ?_, fun present => ?_⟩
  · exact notMem_cutAt inputToken _ (whole _ present)
  · apply notMem_cutAt outputToken text
    rw [← inside]
    exact List.mem_append_left _ (whole _ present)

theorem unwritten_input_read (text : List Char) :
    ∀ piece ∈ (read text).input, outputToken ∉ piece := by
  intro piece given present
  rw [read_eq] at given
  have inside := append_marked_cutAt inputToken (cutAt outputToken text).1
  apply notMem_cutAt outputToken text
  rw [← inside, show (cutAt inputToken (cutAt outputToken text).1).2 = some piece from given]
  exact List.mem_append_right _ (List.mem_cons_of_mem _ present)

end Layout

end PipeShell.Line
