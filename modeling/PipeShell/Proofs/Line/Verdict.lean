import PipeShell.Proofs.Line.Layout
import PipeShell.Proofs.Line.Rules

/-!
# The rules on layouts

The rules and the cut look at a line in different ways.  They agree on layouts: a text made of
plain pieces, none of them empty, obeys all rules (`obeys_text`); and where a text obeys them, the
pieces that the cut takes it into are plain (`plain_of_obeys`).
-/

set_option autoImplicit false

namespace PipeShell.Line

/-! ## Ends of a text -/

theorem inside_of_notMem {token : Char} {text : List Char} (absent : token ∉ text) :
    Inside token text := by
  constructor
  · intro first
    exact absent (List.mem_of_head? first)
  · intro last
    exact absent (List.mem_of_getLast? last)

/-- What follows a text that does not begin or end with a token leaves it so if it ends without the
token. -/
theorem inside_append {token : Char} {head tail : List Char} (written : head ≠ [])
    (inside : Inside token head) (ending : tail.getLast? ≠ some token) :
    Inside token (head ++ tail) := by
  obtain ⟨c, rest, rfl⟩ := List.exists_cons_of_ne_nil written
  refine ⟨inside.1, ?_⟩
  rw [List.getLast?_append]
  cases last : tail.getLast? with
  | none => exact inside.2
  | some d =>
      rw [last] at ending
      simpa using ending

theorem inside_append_of_notMem {token : Char} {head tail : List Char} (written : head ≠ [])
    (inside : Inside token head) (absent : token ∉ tail) : Inside token (head ++ tail) :=
  inside_append written inside fun last => absent (List.mem_of_getLast? last)

theorem inside_append_marked {token mark : Char} {head : List Char} {tail : Option (List Char)}
    (written : head ≠ []) (inside : Inside token head)
    (pieces : ∀ piece ∈ tail, piece ≠ [] ∧ token ∉ piece) :
    Inside token (head ++ marked mark tail) := by
  apply inside_append written inside
  cases tail with
  | none => simp [marked]
  | some piece =>
      obtain ⟨filled, absent⟩ := pieces piece rfl
      obtain ⟨c, rest, rfl⟩ := List.exists_cons_of_ne_nil filled
      rw [marked, List.getLast?_cons_cons]
      exact fun last => absent (List.mem_of_getLast? last)

theorem withoutToken_append (token : Char) (head tail : List Char) :
    withoutToken token (head ++ tail) = withoutToken token head ++ withoutToken token tail :=
  List.filter_append ..

theorem withoutToken_of_notMem {token : Char} {text : List Char} (absent : token ∉ text) :
    withoutToken token text = text := by
  rw [withoutToken, List.filter_eq_self]
  intro c present
  have different : c ≠ token := fun same => absent (same ▸ present)
  simpa using different

/-- Taking a token out takes out the mark and leaves the piece behind it. -/
theorem withoutToken_marked {token : Char} {tail : Option (List Char)}
    (absent : ∀ piece ∈ tail, token ∉ piece) :
    withoutToken token (marked token tail) = tail.getD [] := by
  cases tail with
  | none => rfl
  | some piece =>
      rw [marked, withoutToken, List.filter_cons_of_neg (by simp)]
      exact withoutToken_of_notMem (absent piece rfl)

/-- What a text begins with is left. -/
theorem withoutToken_ne_nil {token : Char} {head tail : List Char} (written : head ≠ [])
    (begins : head.head? ≠ some token) : withoutToken token (head ++ tail) ≠ [] := by
  obtain ⟨c, rest, rfl⟩ := List.exists_cons_of_ne_nil written
  have different : c ≠ token := fun same => begins (same ▸ List.head?_cons)
  rw [List.cons_append, withoutToken, List.filter_cons_of_pos (by simpa using different)]
  exact List.cons_ne_nil _ _

/-! ## Places of a token -/

theorem notMem_marked {c token : Char} {tail : Option (List Char)} (different : c ≠ token)
    (absent : ∀ piece ∈ tail, c ∉ piece) : c ∉ marked token tail := by
  intro member
  rcases mem_marked member with same | ⟨piece, given, present⟩
  · exact different same
  · exact absent piece given present

theorem idxOf?_append_cons {token : Char} {head : List Char} (absent : token ∉ head)
    (tail : List Char) : (head ++ token :: tail).idxOf? token = some head.length := by
  rw [List.idxOf?_eq_some_iff]
  refine ⟨by simp, by simp, ?_⟩
  intro place before same
  rw [List.getElem_append_left before] at same
  exact absent (same ▸ List.getElem_mem before)

/-- A place of a token that a text does not hold lies behind it. -/
theorem length_le_of_getElem? {token : Char} {head tail : List Char} {place : Nat}
    (absent : token ∉ head) (found : (head ++ tail)[place]? = some token) :
    head.length ≤ place := by
  by_contra early
  rw [List.getElem?_append_left (Nat.lt_of_not_le early)] at found
  exact absent (List.mem_of_getElem? found)

theorem notMem_tail_of_count {token : Char} {head tail : List Char}
    (once : (head ++ token :: tail).count token ≤ 1) : token ∉ tail := by
  intro present
  have positive := List.count_pos_iff.mpr present
  rw [List.count_append, List.count_cons_self] at once
  omega

/-- A pipe stands before the first redirection of its kind, and not right before it. -/
theorem lt_of_clear {token : Char} {head tail : List Char} {pipe : Nat}
    (clear : Clear (head ++ token :: tail)) (redirects : token = inputToken ∨ token = outputToken)
    (absent : token ∉ head) (piped : (head ++ token :: tail)[pipe]? = some pipeToken) :
    pipe + 1 < head.length := by
  have first := idxOf?_append_cons absent tail
  have redirected : (head ++ token :: tail).idxOf? inputToken = some head.length ∨
      (head ++ token :: tail).idxOf? outputToken = some head.length := by
    rcases redirects with rfl | rfl
    · exact Or.inl first
    · exact Or.inr first
  exact clear _ _ piped redirected

/-- No pipe stands behind the first redirection of its kind. -/
theorem pipe_notMem_tail_of_clear {token : Char} {head tail : List Char}
    (clear : Clear (head ++ token :: tail)) (redirects : token = inputToken ∨ token = outputToken)
    (absent : token ∉ head) : pipeToken ∉ tail := by
  intro present
  obtain ⟨place, found⟩ := List.getElem?_of_mem present
  have piped : (head ++ token :: tail)[head.length + 1 + place]? = some pipeToken := by
    rw [List.getElem?_append_right (by omega),
      show head.length + 1 + place - head.length = place + 1 by omega]
    exact found
  have before := lt_of_clear clear redirects absent piped
  omega

/-- No pipe touches the first redirection of its kind. -/
theorem getLast?_ne_pipe_of_clear {token : Char} {head tail : List Char}
    (clear : Clear (head ++ token :: tail)) (redirects : token = inputToken ∨ token = outputToken)
    (absent : token ∉ head) : head.getLast? ≠ some pipeToken := by
  intro last
  obtain ⟨start, rfl⟩ := List.getLast?_eq_some_iff.mp last
  have piped : (start ++ [pipeToken] ++ token :: tail)[start.length]? = some pipeToken := by simp
  have before := lt_of_clear clear redirects absent piped
  rw [List.length_append, List.length_singleton] at before
  exact absurd before (Nat.lt_irrefl _)

/-- A first `<` that does not stand before the first `>` stands nowhere. -/
theorem input_notMem_tail_of_ordered {head tail : List Char} (unread : inputToken ∉ head)
    (unwritten : outputToken ∉ head)
    (ordered : ∀ input output, (head ++ outputToken :: tail).idxOf? inputToken = some input →
      (head ++ outputToken :: tail).idxOf? outputToken = some output → input ≤ output) :
    inputToken ∉ tail := by
  intro present
  have somewhere : inputToken ∈ head ++ outputToken :: tail :=
    List.mem_append_right _ (List.mem_cons_of_mem _ present)
  obtain ⟨place, first⟩ := Option.isSome_iff_exists.mp (List.isSome_idxOf?.mpr somewhere)
  have placed := getElem?_of_idxOf? first
  have early := ordered place _ first (idxOf?_append_cons unwritten tail)
  have late := length_le_of_getElem? unread placed
  rw [Nat.le_antisymm early late, List.getElem?_append_right (Nat.le_refl _), Nat.sub_self] at placed
  simp [inputToken, outputToken] at placed

/-! ## From the rules to plain pieces -/

namespace Layout

theorem input_notMem_body {l : Layout} (stages : ∀ stage ∈ l.stages, Plain stage) :
    inputToken ∉ [pipeToken].intercalate l.stages :=
  notMem_intercalate (by decide) fun stage member => (stages stage member).input

theorem output_notMem_body {l : Layout} (stages : ∀ stage ∈ l.stages, Plain stage) :
    outputToken ∉ [pipeToken].intercalate l.stages :=
  notMem_intercalate (by decide) fun stage member => (stages stage member).output

theorem output_notMem_before {l : Layout} (stages : ∀ stage ∈ l.stages, Plain stage)
    (unwritten : ∀ piece ∈ l.input, outputToken ∉ piece) :
    outputToken ∉ [pipeToken].intercalate l.stages ++ marked inputToken l.input := by
  rw [List.mem_append, not_or]
  exact ⟨output_notMem_body stages, notMem_marked (by decide) unwritten⟩

theorem plain_input_of_obeys {l : Layout} (stages : ∀ stage ∈ l.stages, Plain stage)
    (unwritten : ∀ piece ∈ l.input, outputToken ∉ piece) (rules : Obeys l.text) :
    ∀ piece ∈ l.input, Plain piece := by
  intro piece given
  have shape : l.text =
      [pipeToken].intercalate l.stages ++ inputToken :: (piece ++ marked outputToken l.output) := by
    rw [text, show l.input = some piece from given, marked, List.append_assoc, List.cons_append]
  have clear := rules.clear
  have once := rules.inputOnce
  rw [shape] at clear once
  have noPipe := pipe_notMem_tail_of_clear clear (Or.inl rfl) (input_notMem_body stages)
  have noInput := notMem_tail_of_count once
  exact ⟨fun present => noPipe (List.mem_append_left _ present),
    fun present => noInput (List.mem_append_left _ present), unwritten piece given⟩

theorem plain_output_of_obeys {l : Layout} (stages : ∀ stage ∈ l.stages, Plain stage)
    (unwritten : ∀ piece ∈ l.input, outputToken ∉ piece) (rules : Obeys l.text) :
    ∀ piece ∈ l.output, Plain piece := by
  intro piece given
  have shape : l.text = ([pipeToken].intercalate l.stages ++ marked inputToken l.input) ++
      outputToken :: piece := by
    rw [text, show l.output = some piece from given, marked]
  have before := output_notMem_before stages unwritten
  obtain ⟨-, inputOnce, outputOnce, -, ordered, clear, -⟩ := rules
  rw [shape] at inputOnce outputOnce ordered clear
  refine ⟨pipe_notMem_tail_of_clear clear (Or.inr rfl) before, ?_, notMem_tail_of_count outputOnce⟩
  cases read : l.input with
  | some other =>
      -- one `<` stands before the output already
      rw [read, marked, List.append_assoc, List.cons_append] at inputOnce
      intro present
      exact notMem_tail_of_count inputOnce
        (List.mem_append_right _ (List.mem_cons_of_mem _ present))
  | none =>
      rw [read, marked, List.append_nil] at ordered before
      exact input_notMem_tail_of_ordered (input_notMem_body stages) before ordered

/-- The rules see to the pieces that the cut leaves unlooked at. -/
theorem plain_of_obeys {l : Layout} (stages : ∀ stage ∈ l.stages, Plain stage)
    (unwritten : ∀ piece ∈ l.input, outputToken ∉ piece) (rules : Obeys l.text) :
    ∀ piece ∈ l.pieces, Plain piece := by
  intro piece member
  rcases List.mem_append.mp member with member | member
  · rcases List.mem_append.mp member with member | member
    · exact stages piece member
    · exact plain_input_of_obeys stages unwritten rules piece (Option.mem_toList.mp member)
  · exact plain_output_of_obeys stages unwritten rules piece (Option.mem_toList.mp member)

end Layout

/-! ## From plain pieces to the rules -/

theorem apart_of_notMem {text : List Char} (absent : pipeToken ∉ text) : text.IsChain Apart := by
  induction text with
  | nil => exact List.IsChain.nil
  | cons c rest ih =>
      rw [List.mem_cons, not_or] at absent
      refine (ih absent.2).cons fun d _ both => ?_
      exact absent.1 both.1.symm

theorem inside_pipe_intercalate {stages : List (List Char)} (staged : stages ≠ [])
    (pieces : ∀ stage ∈ stages, Plain stage ∧ stage ≠ []) :
    [pipeToken].intercalate stages ≠ [] ∧ Inside pipeToken ([pipeToken].intercalate stages) := by
  induction stages with
  | nil => exact absurd rfl staged
  | cons first others ih =>
      obtain ⟨plain, filled⟩ := pieces first (List.mem_cons_self ..)
      cases others with
      | nil =>
          rw [List.intercalate_singleton]
          exact ⟨filled, inside_of_notMem plain.pipe⟩
      | cons second others =>
          obtain ⟨written, inside⟩ := ih (by simp)
            fun stage member => pieces stage (List.mem_cons_of_mem _ member)
          rw [List.intercalate_cons_cons, List.append_assoc, List.singleton_append]
          refine ⟨by simp, inside_append filled (inside_of_notMem plain.pipe) ?_⟩
          obtain ⟨c, rest, shape⟩ := List.exists_cons_of_ne_nil written
          rw [shape, List.getLast?_cons_cons, ← shape]
          exact inside.2

/-- One pipe between neighbours, none of which is empty. -/
theorem apart_intercalate {stages : List (List Char)}
    (pieces : ∀ stage ∈ stages, Plain stage ∧ stage ≠ []) :
    ([pipeToken].intercalate stages).IsChain Apart := by
  induction stages with
  | nil => exact List.IsChain.nil
  | cons first others ih =>
      have plain := (pieces first (List.mem_cons_self ..)).1
      cases others with
      | nil =>
          rw [List.intercalate_singleton]
          exact apart_of_notMem plain.pipe
      | cons second others =>
          have later : ∀ stage ∈ second :: others, Plain stage ∧ stage ≠ [] :=
            fun stage member => pieces stage (List.mem_cons_of_mem _ member)
          obtain ⟨-, inside⟩ := inside_pipe_intercalate (by simp) later
          rw [List.intercalate_cons_cons, List.append_assoc, List.singleton_append]
          apply (apart_of_notMem plain.pipe).append
          · refine (ih later).cons fun c next both => ?_
            exact inside.1 (both.2 ▸ next)
          · rintro c last d - ⟨rfl, -⟩
            exact plain.pipe (List.mem_of_getLast? last)

theorem count_marked_le {token : Char} {tail : Option (List Char)}
    (absent : ∀ piece ∈ tail, token ∉ piece) : (marked token tail).count token ≤ 1 := by
  cases tail with
  | none => simp [marked]
  | some piece =>
      rw [marked, List.count_cons_self, List.count_eq_zero.mpr (absent piece rfl)]

theorem plain_getD {tail : Option (List Char)} (plain : ∀ piece ∈ tail, Plain piece) :
    Plain (tail.getD []) := by
  cases tail with
  | none => exact ⟨List.not_mem_nil, List.not_mem_nil, List.not_mem_nil⟩
  | some piece => exact plain piece rfl

/-- The line with its `>` taken out. -/
theorem withoutToken_output {head : List Char} {written : Option (List Char)}
    (absent : outputToken ∉ head) (plain : ∀ piece ∈ written, Plain piece) :
    withoutToken outputToken (head ++ marked outputToken written) = head ++ written.getD [] := by
  rw [withoutToken_append, withoutToken_of_notMem absent,
    withoutToken_marked fun piece given => (plain piece given).output]

/-- The line with its `<` taken out as well. -/
theorem withoutToken_input {body rest : List Char} {read : Option (List Char)}
    (absent : inputToken ∉ body) (plain : ∀ piece ∈ read, Plain piece)
    (after : inputToken ∉ rest) :
    withoutToken inputToken (body ++ marked inputToken read ++ rest) =
      body ++ read.getD [] ++ rest := by
  rw [withoutToken_append, withoutToken_append, withoutToken_of_notMem absent,
    withoutToken_marked fun piece given => (plain piece given).input,
    withoutToken_of_notMem after]

/-- Pipes that all stand in the first part, and not at its end, are clear of redirections that all
stand in the second. -/
theorem clear_append {head tail : List Char} (inside : Inside pipeToken head)
    (unpiped : pipeToken ∉ tail) (unread : inputToken ∉ head) (unwritten : outputToken ∉ head) :
    Clear (head ++ tail) := by
  intro pipe redirect piped redirected
  have early : pipe < head.length := by
    by_contra late
    rw [List.getElem?_append_right (Nat.le_of_not_lt late)] at piped
    exact unpiped (List.mem_of_getElem? piped)
  have late : head.length ≤ redirect := by
    rcases redirected with found | found
    · exact length_le_of_getElem? unread (getElem?_of_idxOf? found)
    · exact length_le_of_getElem? unwritten (getElem?_of_idxOf? found)
  have notLast : pipe ≠ head.length - 1 := by
    intro last
    rw [List.getElem?_append_left early, last, ← List.getLast?_eq_getElem?] at piped
    exact inside.2 piped
  omega

/-- The first `<` stands before the first `>` when each stands in front of its own piece. -/
theorem ordered_append {body : List Char} {read written : Option (List Char)}
    (unread : inputToken ∉ body) (unwritten : outputToken ∉ body)
    (readPlain : ∀ piece ∈ read, Plain piece) (writtenPlain : ∀ piece ∈ written, Plain piece)
    (input output : Nat)
    (first : (body ++ marked inputToken read ++ marked outputToken written).idxOf? inputToken =
      some input)
    (second : (body ++ marked inputToken read ++ marked outputToken written).idxOf? outputToken =
      some output) : input ≤ output := by
  have noInput : inputToken ∉ marked outputToken written :=
    notMem_marked (by decide) fun piece given => (writtenPlain piece given).input
  have noOutput : outputToken ∉ body ++ marked inputToken read := by
    rw [List.mem_append, not_or]
    exact ⟨unwritten, notMem_marked (by decide) fun piece given => (readPlain piece given).output⟩
  cases read with
  | none =>
      have absent : inputToken ∉ body ++ marked inputToken none ++ marked outputToken written := by
        simpa [marked] using ⟨unread, noInput⟩
      rw [List.idxOf?_eq_none_iff.mpr absent] at first
      cases first
  | some piece =>
      cases written with
      | none =>
          rw [show marked outputToken none = [] from rfl, List.append_nil,
            List.idxOf?_eq_none_iff.mpr noOutput] at second
          cases second
      | some other =>
          rw [show marked outputToken (some other) = outputToken :: other from rfl,
            idxOf?_append_cons noOutput, Option.some.injEq] at second
          rw [List.append_assoc, show marked inputToken (some piece) = inputToken :: piece from rfl,
            List.cons_append, idxOf?_append_cons unread, Option.some.injEq] at first
          rw [← first, ← second, List.length_append]
          omega

namespace Layout

variable {l : Layout}

theorem pipe_notMem_marks (readPlain : ∀ piece ∈ l.input, Plain piece)
    (writtenPlain : ∀ piece ∈ l.output, Plain piece) :
    pipeToken ∉ marked inputToken l.input ++ marked outputToken l.output := by
  rw [List.mem_append, not_or]
  exact ⟨notMem_marked (by decide) fun piece given => (readPlain piece given).pipe,
    notMem_marked (by decide) fun piece given => (writtenPlain piece given).pipe⟩

theorem count_input_text_le (stages : ∀ stage ∈ l.stages, Plain stage)
    (readPlain : ∀ piece ∈ l.input, Plain piece) (writtenPlain : ∀ piece ∈ l.output, Plain piece) :
    l.text.count inputToken ≤ 1 := by
  have few := count_marked_le fun piece given => (readPlain piece given).input
  have absent : inputToken ∉ marked outputToken l.output :=
    notMem_marked (by decide) fun piece given => (writtenPlain piece given).input
  rw [text, List.count_append, List.count_append,
    List.count_eq_zero.mpr (input_notMem_body stages), List.count_eq_zero.mpr absent]
  omega

theorem count_output_text_le (stages : ∀ stage ∈ l.stages, Plain stage)
    (readPlain : ∀ piece ∈ l.input, Plain piece) (writtenPlain : ∀ piece ∈ l.output, Plain piece) :
    l.text.count outputToken ≤ 1 := by
  have few := count_marked_le fun piece given => (writtenPlain piece given).output
  have absent := output_notMem_before stages fun piece given => (readPlain piece given).output
  rw [text, List.count_append, List.count_eq_zero.mpr absent]
  omega

/-- Pieces that hold no token and are not empty make up a text that breaks no rule. -/
theorem obeys_text (staged : l.stages ≠ []) (plain : ∀ piece ∈ l.pieces, Plain piece)
    (filled : ∀ piece ∈ l.pieces, piece ≠ []) : Obeys l.text := by
  have stages : ∀ stage ∈ l.stages, Plain stage := fun stage member =>
    plain stage (stage_mem_pieces member)
  have readPlain : ∀ piece ∈ l.input, Plain piece := fun piece given =>
    plain piece (input_mem_pieces given)
  have writtenPlain : ∀ piece ∈ l.output, Plain piece := fun piece given =>
    plain piece (output_mem_pieces given)
  have stagesFilled : ∀ stage ∈ l.stages, Plain stage ∧ stage ≠ [] := fun stage member =>
    ⟨stages stage member, filled stage (stage_mem_pieces member)⟩
  have inputOnce := count_input_text_le stages readPlain writtenPlain
  have outputOnce := count_output_text_le stages readPlain writtenPlain
  have noPipe := pipe_notMem_marks readPlain writtenPlain
  have noOutput := output_notMem_before stages fun piece given => (readPlain piece given).output
  have unread := input_notMem_body stages
  have unwritten := output_notMem_body stages
  obtain ⟨bodyFilled, bodyInside⟩ := inside_pipe_intercalate staged stagesFilled
  have bodyApart := apart_intercalate stagesFilled
  have readRest := plain_getD readPlain
  have writtenRest := plain_getD writtenPlain
  have afterOutput := withoutToken_output noOutput writtenPlain
  have afterInput := withoutToken_input unread readPlain writtenRest.input
  have startFilled : [pipeToken].intercalate l.stages ++ marked inputToken l.input ≠ [] := by
    simp [bodyFilled]
  refine
    { written := by simp [text, bodyFilled]
      inputOnce := inputOnce
      outputOnce := outputOnce
      apart := ?_
      ordered := ordered_append unread unwritten readPlain writtenPlain
      clear := ?_
      outputInside := ?_
      inputInside := ?_
      pipeInside := ?_
      commanded := ?_ }
  · rw [text, List.append_assoc]
    apply bodyApart.append (apart_of_notMem noPipe)
    rintro d last e - ⟨rfl, -⟩
    exact bodyInside.2 last
  · rw [text, List.append_assoc]
    exact clear_append bodyInside noPipe unread unwritten
  · apply inside_append_marked startFilled (inside_of_notMem noOutput)
    exact fun piece given =>
      ⟨filled piece (output_mem_pieces given), (writtenPlain piece given).output⟩
  · rw [text, afterOutput]
    apply inside_append_of_notMem startFilled _ writtenRest.input
    apply inside_append_marked bodyFilled (inside_of_notMem unread)
    exact fun piece given =>
      ⟨filled piece (input_mem_pieces given), (readPlain piece given).input⟩
  · rw [text, afterOutput, afterInput, List.append_assoc]
    apply inside_append_of_notMem bodyFilled bodyInside
    rw [List.mem_append, not_or]
    exact ⟨readRest.pipe, writtenRest.pipe⟩
  · rw [text, afterOutput, afterInput, List.append_assoc]
    exact withoutToken_ne_nil bodyFilled bodyInside.1

end Layout

end PipeShell.Line
