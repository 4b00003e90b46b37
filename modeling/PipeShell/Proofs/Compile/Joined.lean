import PipeShell.Proofs.Compile.Coherence
import PipeShell.Proofs.Text.Words

/-!
# Lines joined by pipes

A pipe puts lines together without changing what stands on its sides.  Lines that each compile to a
single program, joined by pipes, compile to the pipeline of these programs, and every stage of a
pipeline compiles on its own to the same call (`pipes_join_calls`).  Only the channels of a stage
depend on its neighbours, and a builtin, which may have none, is no part of a pipeline.
-/

set_option autoImplicit false

namespace PipeShell

open Text

/-! ## Single stages -/

/-- A stage and nothing else. -/
def Pipeline.single (stage : Stage) : Pipeline :=
  { stages := [stage], inputFile := none, outputFile := none }

/-- The stage of these arguments in a line of its own. -/
def Stage.alone (ctx : Context) (name : String) (rest : List String) : Stage :=
  { name, argv := name :: rest, isBuiltin := ctx.isBuiltin name, input := .stdio,
    output := .stdio }

/-- The stages run the same program, or the same builtin, with the same arguments. -/
structure Stage.SameCall (a b : Stage) : Prop where
  name : a.name = b.name
  argv : a.argv = b.argv
  isBuiltin : a.isBuiltin = b.isBuiltin

namespace Compile

variable {ctx : Context} {text : String} {stage : Stage}

theorem arguments_trim (ctx : Context) (text : String) :
    arguments ctx (trim text) = arguments ctx text := by
  rw [arguments, words_trim, arguments]

/-- A text with arguments is not blank. -/
theorem written_of_arguments {name : String} {rest : List String}
    (called : arguments ctx text = name :: rest) : Line.Written text.toList := by
  obtain ⟨command, others, more, expanded, -, -⟩ := arguments_eq_cons_iff.mp called
  have worded : words text ≠ [] := by
    intro none
    rw [none] at expanded
    cases expanded
  rw [ne_eq, words_eq_nil_iff, isBlank_iff] at worded
  simpa [Text.Blank, Line.Written] using worded

theorem segments_single_iff :
    segments ctx { stages := [text], input := none, output := none } = .ok (.single stage) ↔
      ∃ name rest, arguments ctx text = name :: rest ∧ stage = .alone ctx name rest := by
  rw [segments_eq_ok_iff, Pipeline.single, List.zipIdx_singleton, List.forall₂_cons]
  constructor
  · rintro ⟨⟨placed, -⟩, -, -⟩
    obtain ⟨name, rest, called, -, rfl⟩ := stage_eq_ok_iff.mp placed
    exact ⟨name, rest, called, rfl⟩
  · rintro ⟨name, rest, called, rfl⟩
    have placed := stage_eq_ok_iff.mpr ⟨name, rest, called, fun _ => ⟨rfl, rfl⟩, rfl⟩
    exact ⟨⟨placed, .nil⟩, rfl, rfl⟩

end Compile

section Single

variable {ctx : Context} {line : String} {stage : Stage}

/-- A line is a single stage just when it has arguments and holds no token. -/
theorem compile_eq_single_iff : compile ctx line = .ok (.single stage) ↔
    Line.Plain line.toList ∧ ∃ name rest,
      Compile.arguments ctx line = name :: rest ∧ stage = .alone ctx name rest := by
  rw [compile_eq_ok_iff]
  constructor
  · rintro ⟨⟨stages, input, output⟩, accepted, compiled⟩
    have size := Compile.size_of_segments compiled
    obtain ⟨-, rfl, rfl⟩ := Compile.segments_eq_ok_iff.mp compiled
    obtain ⟨text, rfl⟩ := List.length_eq_one_iff.mp size.symm
    obtain ⟨plain, -, rfl⟩ := Line.parse_eq_single_iff.mp accepted
    obtain ⟨name, rest, called, same⟩ := Compile.segments_single_iff.mp compiled
    rw [Compile.arguments_trim] at called
    exact ⟨plain, name, rest, called, same⟩
  · rintro ⟨plain, name, rest, called, same⟩
    refine ⟨_, Line.parse_of_plain plain (Compile.written_of_arguments called), ?_⟩
    refine Compile.segments_single_iff.mpr ⟨name, rest, ?_, same⟩
    rw [Compile.arguments_trim, called]

end Single

/-! ## Stages with neighbours -/

/-- The stage at a place in a pipeline without files. -/
def Stage.placed (stage : Stage) (i n : Nat) : Stage :=
  { stage with
    input := (Compile.channels i n false false).1
    output := (Compile.channels i n false false).2 }

theorem Stage.sameCall_placed (stage : Stage) (i n : Nat) : stage.SameCall (stage.placed i n) :=
  ⟨rfl, rfl, rfl⟩

/-- A program may have neighbours. -/
theorem Compile.stageAt_of_program {ctx : Context} {s : Segments} {text name : String}
    {rest : List String} (called : arguments ctx text = name :: rest)
    (program : ctx.isBuiltin name = false) (unread : s.input = none) (unwritten : s.output = none)
    (i : Nat) :
    stageAt ctx s i text = .ok ((Stage.alone ctx name rest).placed i s.stages.length) := by
  rw [stageAt, unread, unwritten, stage_eq_ok_iff]
  refine ⟨name, rest, called, fun builtin => ?_, rfl⟩
  rw [program] at builtin
  cases builtin

section Joined

variable {ctx : Context} {lines : List String} {stages : List Stage}

/-- What is the same in two lists is so at the same places. -/
theorem forall₂_zipIdx {α β : Type} {R : α → β → Prop} {left : List α} {right : List β}
    (each : List.Forall₂ R left right) (start : Nat) :
    List.Forall₂ (fun x y => R x.1 y.1 ∧ x.2 = y.2) (left.zipIdx start) (right.zipIdx start) := by
  induction each generalizing start with
  | nil => exact .nil
  | cons first _ ih => exact .cons ⟨first, rfl⟩ (ih (start + 1))

/-- Programs keep their calls when their lines are joined. -/
theorem compile_intercalate (staged : lines ≠ [])
    (each : List.Forall₂ (fun line stage =>
      compile ctx line = .ok (.single stage) ∧ stage.isBuiltin = false) lines stages) :
    compile ctx ("|".intercalate lines) = .ok
      { stages := stages.zipIdx.map fun place => place.1.placed place.2 stages.length
        inputFile := none, outputFile := none } := by
  have pieces : ∀ line ∈ lines, Line.Plain line.toList ∧ Line.Written line.toList := by
    intro line member
    obtain ⟨i, placed, rfl⟩ := List.getElem_of_mem member
    obtain ⟨compiled, -⟩ := each.get placed (each.length_eq ▸ placed)
    obtain ⟨plain, name, rest, called, -⟩ := compile_eq_single_iff.mp compiled
    exact ⟨plain, Compile.written_of_arguments called⟩
  refine compile_eq_ok_iff.mpr ⟨_, Line.parse_intercalate staged pieces, ?_⟩
  refine Compile.segments_eq_ok_iff.mpr ⟨?_, rfl, rfl⟩
  rw [List.zipIdx_map, List.forall₂_map_left_iff, List.forall₂_map_right_iff]
  refine (forall₂_zipIdx each 0).imp ?_
  rintro ⟨line, i⟩ ⟨stage, j⟩ ⟨⟨compiled, program⟩, rfl⟩
  obtain ⟨-, name, rest, called, rfl⟩ := compile_eq_single_iff.mp compiled
  rw [← Compile.arguments_trim] at called
  have size : (lines.map trim).length = stages.length := by
    rw [List.length_map, each.length_eq]
  rw [← size]
  exact Compile.stageAt_of_program called program rfl rfl i

/-- The text of a stage is a line of its own, with or without neighbours in the pipeline. -/
theorem compile_text_of_pipeline {line : String} {p : Pipeline} {s : Segments}
    (compiled : compile ctx line = .ok p) (accepted : Line.parse line = .ok s) :
    List.Forall₂ (fun text stage =>
      ∃ alone, compile ctx text = .ok (.single alone) ∧ alone.SameCall stage)
      s.stages p.stages := by
  have coherent := coherent_of_compile compiled
  obtain ⟨s', accepted', fromSegments⟩ := compile_eq_ok_iff.mp compiled
  obtain rfl := Except.ok.inj (accepted.symm.trans accepted')
  have plain := Line.plain_of_parse accepted
  have together := List.forall₂_iff_zip.mp (Compile.arguments_of_segments fromSegments)
  refine List.forall₂_iff_zip.mpr ⟨together.1, fun {text stage} member => ?_⟩
  obtain ⟨inTexts, inStages⟩ := List.of_mem_zip member
  have called := together.2 member
  obtain ⟨rest, argv⟩ := List.head?_eq_some_iff.mp (coherent.called stage inStages)
  have resolved := coherent.resolved stage inStages
  refine ⟨.alone ctx stage.name rest, ?_, ⟨rfl, argv.symm, resolved.symm⟩⟩
  exact compile_eq_single_iff.mpr ⟨plain text inTexts, stage.name, rest, called.trans argv, rfl⟩

end Joined

/-- Lines that each compile to one program without redirection compile, joined by pipes, to the
pipeline of these programs.  The other way round, the text of each stage of a pipeline compiles on
its own to one stage with the same call. -/
theorem pipes_join_calls (ctx : Context) :
    (∀ (lines : List String) (stages : List Stage), lines ≠ [] →
      List.Forall₂ (fun line stage =>
        compile ctx line = .ok (.single stage) ∧ stage.isBuiltin = false) lines stages →
      ∃ p, compile ctx ("|".intercalate lines) = .ok p ∧
        p.inputFile = none ∧ p.outputFile = none ∧
        List.Forall₂ Stage.SameCall stages p.stages) ∧
    ∀ line p s, compile ctx line = .ok p → Line.parse line = .ok s →
      List.Forall₂ (fun text stage =>
        ∃ alone, compile ctx text = .ok (.single alone) ∧ alone.SameCall stage)
        s.stages p.stages := by
  constructor
  · intro lines stages staged each
    refine ⟨_, compile_intercalate staged each, rfl, rfl, ?_⟩
    have unplaced : stages = stages.zipIdx.map Prod.fst := (List.zipIdx_map_fst 0 stages).symm
    conv => arg 2; rw [unplaced]
    rw [List.forall₂_map_left_iff, List.forall₂_map_right_iff, List.forall₂_same]
    exact fun place _ => place.1.sameCall_placed place.2 stages.length
  · intro line p s compiled accepted
    exact compile_text_of_pipeline compiled accepted

/-- A builtin is a line of its own, but it cannot be joined. -/
example :
    let ctx : Context := { isBuiltin := (· = "cd"), expandAlias := id, expandTilde := id }
    compile ctx "cd /tmp" = .ok (.single (.alone ctx "cd" ["/tmp"])) ∧
    compile ctx "ls" = .ok (.single (.alone ctx "ls" [])) ∧
    compile ctx "cd /tmp|ls" = .error (.compile (.redirectedBuiltin "cd")) := by decide

end PipeShell
