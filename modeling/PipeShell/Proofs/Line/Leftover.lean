import PipeShell.Proofs.Line.FirstBroken

/-!
# What the rules leave for the cut

The cut refuses pieces that are blank.  If all white space of a line is spacing, such a piece is
empty in the line without its spacing, and tokens stand next to each other or at an end there.  The
rules refuse each of these places but one, between `<` and `>`.  So of a line that obeys the rules
the cut refuses nothing but an input that is not named (`only_unnamed_input_is_left`).

White space of other kinds is seen by the cut alone, so the error of a blank stage is still needed.
-/

set_option autoImplicit false

namespace PipeShell.Line

open Text

/-! ## Pieces of a text that obeys the rules -/

/-- Between pipes that stand neither at an end of the text nor next to each other there is
something. -/
theorem stages_ne_nil_of_inside {stages : List (List Char)}
    (written : [pipeToken].intercalate stages ≠ [])
    (inside : Inside pipeToken ([pipeToken].intercalate stages))
    (apart : ([pipeToken].intercalate stages).IsChain Apart) : ∀ stage ∈ stages, stage ≠ [] := by
  induction stages with
  | nil => exact List.forall_mem_nil _
  | cons first others ih =>
      cases others with
      | nil =>
          rw [List.intercalate_singleton] at written
          exact List.forall_mem_singleton.mpr written
      | cons second others =>
          rw [List.intercalate_cons_cons, List.append_assoc, List.singleton_append] at inside apart
          generalize [pipeToken].intercalate (second :: others) = rest at ih inside apart
          have filled : first ≠ [] := by
            rintro rfl
            exact inside.1 rfl
          have onward : rest ≠ [] := by
            rintro rfl
            exact inside.2 (List.getLast?_append_cons ..)
          -- what stands behind the first pipe neither begins with one nor ends with one
          obtain ⟨c, behind, rfl⟩ := List.exists_cons_of_ne_nil onward
          have apart := apart.right_of_append
          have begins : (c :: behind).head? ≠ some pipeToken := by
            intro piped
            exact (List.isChain_cons_cons.mp apart).1 ⟨rfl, Option.some.inj piped⟩
          have ends : (c :: behind).getLast? ≠ some pipeToken := by
            intro piped
            refine inside.2 ?_
            rw [List.getLast?_append_cons, List.getLast?_cons_cons]
            exact piped
          exact List.forall_mem_cons.mpr ⟨filled, ih onward ⟨begins, ends⟩ apart.tail⟩

namespace Layout

variable {l : Layout}

/-- A line does not begin with a redirection. -/
theorem body_ne_nil_of_obeys (rules : Obeys l.text) : [pipeToken].intercalate l.stages ≠ [] := by
  intro empty
  obtain ⟨written, -, -, -, -, -, outputInside, inputInside, -, -⟩ := rules
  rw [text, empty, List.nil_append] at written outputInside inputInside
  cases read : l.input with
  | some piece =>
      rw [read] at inputInside
      exact inputInside.1 rfl
  | none =>
      rw [read] at written outputInside
      cases wrote : l.output with
      | some piece =>
          rw [wrote] at outputInside
          exact outputInside.1 rfl
      | none =>
          rw [wrote] at written
          exact written rfl

/-- A pipe at the end of the stages would end the line or touch the redirection behind it. -/
theorem getLast?_body_of_obeys (stages : ∀ stage ∈ l.stages, Plain stage)
    (rules : Obeys l.text) : ([pipeToken].intercalate l.stages).getLast? ≠ some pipeToken := by
  have unread := input_notMem_body stages
  have unwritten := output_notMem_body stages
  have clear := rules.clear
  cases read : l.input with
  | some piece =>
      rw [text, read, marked, List.append_assoc, List.cons_append] at clear
      exact getLast?_ne_pipe_of_clear clear (.inl rfl) unread
  | none =>
      cases wrote : l.output with
      | some piece =>
          rw [text, read, wrote, marked, marked, List.append_nil] at clear
          exact getLast?_ne_pipe_of_clear clear (.inr rfl) unwritten
      | none =>
          have inside := rules.pipeInside
          rw [text, read, wrote, marked, marked, List.append_nil, List.append_nil,
            withoutToken_of_notMem unwritten, withoutToken_of_notMem unread] at inside
          exact inside.2

theorem stages_ne_nil_of_obeys (stages : ∀ stage ∈ l.stages, Plain stage)
    (rules : Obeys l.text) : ∀ stage ∈ l.stages, stage ≠ [] := by
  have begins : ([pipeToken].intercalate l.stages).head? ≠ some pipeToken := by
    intro first
    obtain ⟨rest, shape⟩ := List.head?_eq_some_iff.mp first
    have inside := rules.pipeInside
    rw [text, shape] at inside
    exact inside.1 rfl
  have apart := rules.apart
  rw [text, List.append_assoc] at apart
  exact stages_ne_nil_of_inside (body_ne_nil_of_obeys rules)
    ⟨begins, getLast?_body_of_obeys stages rules⟩ apart.left_of_append

theorem output_ne_nil_of_obeys (rules : Obeys l.text) : ∀ target ∈ l.output, target ≠ [] := by
  rintro target wrote rfl
  have inside := rules.outputInside
  rw [text, show l.output = some [] from wrote] at inside
  exact inside.2 (List.getLast?_append_cons ..)

/-- An empty input does not end the line, so the output follows it. -/
theorem infix_of_input_eq_nil (plain : ∀ piece ∈ l.pieces, Plain piece) (rules : Obeys l.text)
    (read : l.input = some []) : [inputToken, outputToken] <:+: l.text := by
  cases wrote : l.output with
  | some target =>
      refine ⟨[pipeToken].intercalate l.stages, target, ?_⟩
      rw [text, read, wrote]
      simp [marked]
  | none =>
      have inside := rules.inputInside
      have unwritten := output_notMem_before (l := l)
        (fun stage member => plain stage (stage_mem_pieces member))
        fun piece given => (plain piece (input_mem_pieces given)).output
      rw [text, wrote, marked, List.append_nil, withoutToken_of_notMem unwritten, read] at inside
      exact absurd (List.getLast?_append_cons ..) inside.2

/-- A `<` that stands right before a `>` has an empty piece behind it. -/
theorem input_eq_nil_of_infix (plain : ∀ piece ∈ l.pieces, Plain piece)
    (touching : [inputToken, outputToken] <:+: l.text) : l.input = some [] := by
  have unread := input_notMem_body fun stage member => plain stage (stage_mem_pieces member)
  have unmarked : inputToken ∉ marked outputToken l.output :=
    notMem_marked (by decide) fun piece given => (plain piece (output_mem_pieces given)).input
  obtain ⟨before, behind, shape⟩ := touching
  rw [text, List.append_assoc, List.append_assoc, List.cons_append] at shape
  cases read : l.input with
  | none =>
      have member : inputToken ∈ before ++ inputToken :: ([outputToken] ++ behind) := by simp
      rw [shape, read, marked, List.nil_append, List.mem_append] at member
      exact absurd member (not_or.mpr ⟨unread, unmarked⟩)
  | some piece =>
      have inputPlain := plain piece (input_mem_pieces read)
      rw [read, marked, List.cons_append] at shape
      have rest : inputToken ∉ piece ++ marked outputToken l.output := by
        rw [List.mem_append, not_or]
        exact ⟨inputPlain.input, unmarked⟩
      -- both sides are cut at the only `<`, and what follows it begins with `>`
      obtain ⟨-, -, same⟩ := (List.append_cons_inj_of_notMem unread rest).mp shape.symm
      cases piece with
      | nil => rfl
      | cons c piece =>
          rw [List.cons_append] at same
          cases same
          exact absurd List.mem_cons_self inputPlain.output

end Layout

/-! ## Blank pieces of a line -/

/-- The text has no white space but spacing. -/
def OnlySpacing (text : List Char) : Prop := ∀ c ∈ text, isWhiteSpace c = true → isSpacing c = true

theorem all_eq_true_iff_onlySpacing {text : List Char} :
    (text.all fun c => !isWhiteSpace c || isSpacing c) = true ↔ OnlySpacing text := by
  simp [OnlySpacing, imp_iff_not_or]

instance (text : List Char) : Decidable (OnlySpacing text) :=
  decidable_of_iff _ all_eq_true_iff_onlySpacing

theorem bare_eq_nil_iff {text : List Char} (spaced : OnlySpacing text) :
    bare text = [] ↔ Blank text := by
  rw [bare, List.filter_eq_nil_iff, Blank]
  refine forall₂_congr fun c member => ?_
  rw [Bool.not_eq_true', Bool.not_eq_false]
  exact ⟨isWhiteSpace_of_isSpacing, spaced c member⟩

/-- Of a line without other white space that obeys the rules, the cut refuses only an input that is
not named. -/
theorem cut_eq_error_iff_of_obeys {text : List Char} {error : LineError}
    (spaced : OnlySpacing text) (rules : Obeys (bare text)) :
    cut text = .error error ↔
      [inputToken, outputToken] <:+: bare text ∧ .missingTarget inputToken = error := by
  have plain := forall_mem_pieces_bare.mpr fun piece member =>
    plain_bare_iff.mpr (plain_of_obeys_bare rules piece member)
  have blank : ∀ piece ∈ (Layout.read text).pieces, (Blank piece ↔ bare piece = []) := by
    intro piece member
    have among : piece ⊆ text := by
      have within := Layout.subset_text member
      rwa [Layout.text_read] at within
    exact (bare_eq_nil_iff fun c present => spaced c (among present)).symm
  -- the layout of the bare line has the pieces of the line without their spacing
  have whole : ((Layout.read text).map bare).text = bare text := by
    rw [← bare_text, Layout.text_read]
  rw [← whole] at rules ⊢
  have noStage : ¬ ∃ stage ∈ (Layout.read text).stages, Blank stage := by
    rintro ⟨stage, member, empty⟩
    refine Layout.stages_ne_nil_of_obeys
      (fun stage member => plain stage (Layout.stage_mem_pieces member)) rules (bare stage)
      (List.mem_map_of_mem member) ?_
    exact (blank stage (Layout.stage_mem_pieces member)).mp empty
  have noOutput : ¬ ∃ target ∈ (Layout.read text).output, Blank target := by
    rintro ⟨target, wrote, empty⟩
    refine Layout.output_ne_nil_of_obeys rules (bare target) (Option.mem_map_of_mem bare wrote) ?_
    exact (blank target (Layout.output_mem_pieces wrote)).mp empty
  have someInput : (∃ target ∈ (Layout.read text).input, Blank target) ↔
      [inputToken, outputToken] <:+: ((Layout.read text).map bare).text := by
    have unnamed : ((Layout.read text).map bare).input = some [] ↔
        [inputToken, outputToken] <:+: ((Layout.read text).map bare).text :=
      ⟨Layout.infix_of_input_eq_nil plain rules, Layout.input_eq_nil_of_infix plain⟩
    rw [← unnamed, Layout.map, Option.map_eq_some_iff]
    exact exists_congr fun target => and_congr_right fun read =>
      blank target (Layout.input_mem_pieces read)
  simp only [cut_eq_error_iff, firstBroken_cons_iff, not_firstBroken_nil, noStage, noOutput,
    someInput, false_and, and_false, or_false, false_or, not_false_eq_true, true_and]

/-! ## Lines -/

/-- Of a line without other white space, the errors that are not those of the rules come down to the
one for an input that is not named. -/
theorem parse_eq_error_iff_of_onlySpacing {line : String} {error : LineError}
    (spaced : OnlySpacing line.toList)
    (ofPiece : error ∉ (bareRules (bare line.toList)).map Rule.error) :
    parse line = .error error ↔ violation? (bare line.toList) = none ∧
      [inputToken, outputToken] <:+: bare line.toList ∧ .missingTarget inputToken = error := by
  have unbroken : violation? (bare line.toList) ≠ some error := fun found =>
    ofPiece ((finds_violation? _ error).mp found).error_mem
  rw [parse_eq_error_iff, or_iff_right unbroken]
  refine and_congr_right fun obeys => ?_
  exact cut_eq_error_iff_of_obeys spaced (violation?_eq_none_iff.mp obeys)

theorem exists_parse_eq_ok_iff_of_onlySpacing {line : String} (spaced : OnlySpacing line.toList) :
    (∃ segments, parse line = .ok segments) ↔ violation? (bare line.toList) = none ∧
      ¬ [inputToken, outputToken] <:+: bare line.toList := by
  simp only [parse_eq_ok_iff, ← violation?_eq_none_iff, exists_and_left]
  refine and_congr_right fun obeys => ?_
  have refused : ∀ error, cut line.toList = .error error ↔
      [inputToken, outputToken] <:+: bare line.toList ∧ .missingTarget inputToken = error :=
    fun _ => cut_eq_error_iff_of_obeys spaced (violation?_eq_none_iff.mp obeys)
  cases outcome : cut line.toList with
  | ok segments => simpa [outcome] using refused (.missingTarget inputToken)
  | error cause =>
      obtain ⟨unnamed, -⟩ := (refused cause).mp outcome
      simpa using unnamed

/-- No line is refused for lacking a command.  A line whose white space is all spacing is not
refused for a blank stage or an output that is not named either, and once it obeys the rules it is
refused just when `<` and `>` stand next to each other in it but for spacing. -/
theorem only_unnamed_input_is_left (line : String) :
    parse line ≠ .error .noCommand ∧
      (OnlySpacing line.toList →
        parse line ≠ .error .emptyStage ∧
        parse line ≠ .error (.missingTarget outputToken) ∧
        (parse line = .error (.missingTarget inputToken) ↔
          violation? (bare line.toList) = none ∧
            [inputToken, outputToken] <:+: bare line.toList) ∧
        ((∃ segments, parse line = .ok segments) ↔
          violation? (bare line.toList) = none ∧
            ¬ [inputToken, outputToken] <:+: bare line.toList)) := by
  refine ⟨fun refused => ?_, fun spaced => ⟨?_, ?_, ?_, ?_⟩⟩
  · have listed := (parse_eq_error_iff_firstBroken.mp refused).error_mem
    simp [rules, bareRules, pieceRules] at listed
  · rw [ne_eq, parse_eq_error_iff_of_onlySpacing spaced (by simp [bareRules])]
    rintro ⟨-, -, same⟩
    cases same
  · rw [ne_eq, parse_eq_error_iff_of_onlySpacing spaced (by simp [bareRules])]
    rintro ⟨-, -, same⟩
    simp [inputToken, outputToken] at same
  · rw [parse_eq_error_iff_of_onlySpacing spaced (by simp [bareRules])]
    simp only [and_true]
  · exact exists_parse_eq_ok_iff_of_onlySpacing spaced

theorem only_unnamed_input_is_left_of_tab :
    OnlySpacing "sort <\t> out\n".toList ∧
      parse "sort <\t> out\n" = .error (.missingTarget inputToken) := by
  have spaced : OnlySpacing "sort <\t> out\n".toList := by decide
  have touching : [inputToken, outputToken] <:+: bare "sort <\t> out\n".toList :=
    ⟨"sort".toList, "out".toList, by decide⟩
  obtain ⟨-, left⟩ := only_unnamed_input_is_left "sort <\t> out\n"
  obtain ⟨-, -, unnamed, -⟩ := left spaced
  exact ⟨spaced, unnamed.mpr ⟨by decide, touching⟩⟩

/-- White space that is no spacing hides a blank stage from the rules. -/
example : parse "a |\u00a0" = .error .emptyStage := by decide

end PipeShell.Line
