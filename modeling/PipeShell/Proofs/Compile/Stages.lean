import PipeShell.Compile
import PipeShell.Proofs.Outcome
import PipeShell.Proofs.Text

/-!
# Stages of a compiled line

When compiling gives something, and what it is: a pipeline has one stage for each segment, and each
stage is the one that its text and its place give (`compile_eq_ok_iff`, `segments_eq_ok_iff`,
`stage_eq_ok_iff`).
-/

set_option autoImplicit false

namespace PipeShell

open Text

theorem compile_eq_ok_iff {ctx : Context} {line : String} {p : Pipeline} :
    compile ctx line = .ok p ↔
      ∃ s, Line.parse line = .ok s ∧ Compile.segments ctx s = .ok p := by
  unfold compile
  cases Line.parse line with
  | error cause => simp
  | ok s => cases compiled : Compile.segments ctx s <;> simp [compiled]

namespace Compile

/-! ## Arguments -/

theorem arguments_eq_cons_iff {ctx : Context} {text name : String} {rest : List String} :
    arguments ctx text = name :: rest ↔
      ∃ command others more, (words text).map ctx.expandTilde = command :: others ∧
        words (ctx.expandAlias command) = name :: more ∧ more ++ others = rest := by
  unfold arguments
  cases (words text).map ctx.expandTilde with
  | nil => simp
  | cons command others =>
      cases aliased : words (ctx.expandAlias command) with
      | nil => simp [aliased]
      | cons first more => simp [aliased]

/-- A stage is called by a word, whatever the session says of tildes and aliases. -/
theorem name_of_arguments {ctx : Context} {text name : String} {rest : List String}
    (called : arguments ctx text = name :: rest) : name ≠ "" ∧ hasWhiteSpace name = false := by
  obtain ⟨command, others, more, -, expanded, -⟩ := arguments_eq_cons_iff.mp called
  have member : name ∈ words (ctx.expandAlias command) := by
    rw [expanded]
    exact List.mem_cons_self ..
  exact mem_words member

/-! ## One stage -/

theorem stage_eq_ok_iff {ctx : Context} {text : String} {input output : Channel} {st : Stage} :
    stage ctx text input output = .ok st ↔
      ∃ name rest, arguments ctx text = name :: rest ∧
        (ctx.isBuiltin name = true → input = .stdio ∧ output = .stdio) ∧
        { name, argv := name :: rest, isBuiltin := ctx.isBuiltin name, input, output } = st := by
  unfold stage
  cases arguments ctx text with
  | nil => simp
  | cons name rest =>
      have allowed_iff :
          (ctx.isBuiltin name && !(input = .stdio && output = .stdio)) = false ↔
            (ctx.isBuiltin name = true → input = .stdio ∧ output = .stdio) := by
        cases ctx.isBuiltin name <;> simp
      dsimp only
      split
      · next refused =>
          have notAllowed := mt allowed_iff.mpr (by rw [refused]; decide)
          simp only [reduceCtorEq, List.cons.injEq, false_iff]
          rintro ⟨_, _, ⟨rfl, rfl⟩, allowed, -⟩
          exact notAllowed allowed
      · next accepted =>
          have allowed := allowed_iff.mp (Bool.eq_false_iff.mpr accepted)
          simp only [Except.ok.injEq, List.cons.injEq]
          constructor
          · rintro rfl
            exact ⟨name, rest, ⟨rfl, rfl⟩, allowed, rfl⟩
          · rintro ⟨_, _, ⟨rfl, rfl⟩, -, rfl⟩
            rfl

/-! ## All stages -/

/-- The stage that a text compiles to at place `i` of a line. -/
def stageAt (ctx : Context) (s : Segments) (i : Nat) (text : String) :
    Except CompileError Stage :=
  stage ctx text (channels i s.stages.length s.input.isSome s.output.isSome).1
    (channels i s.stages.length s.input.isSome s.output.isSome).2

theorem segments_eq_ok_iff {ctx : Context} {s : Segments} {p : Pipeline} :
    segments ctx s = .ok p ↔
      List.Forall₂ (fun place st => stageAt ctx s place.2 place.1 = .ok st)
        s.stages.zipIdx p.stages ∧ s.input = p.inputFile ∧ s.output = p.outputFile := by
  unfold segments
  rw [bind_eq_ok_iff]
  constructor
  · rintro ⟨stages, each, same⟩
    cases same
    exact ⟨mapM_eq_ok_iff.mp each, rfl, rfl⟩
  · rintro ⟨each, input, output⟩
    refine ⟨p.stages, mapM_eq_ok_iff.mpr each, ?_⟩
    rw [input, output]
    rfl

/-- Of the text of a stage, compiling looks at the arguments alone. -/
theorem segments_congr {ctx : Context} {s s' : Segments}
    (same : List.Forall₂ (fun text text' => arguments ctx text = arguments ctx text')
      s.stages s'.stages) (input : s.input = s'.input) (output : s.output = s'.output) :
    segments ctx s = segments ctx s' := by
  unfold segments
  rw [← same.length_eq, input, output]
  refine congrArg (· >>= _) (mapM_zipIdx_congr (same.imp fun text text' called i => ?_) 0)
  dsimp only
  rw [stage, stage, called]

theorem size_of_segments {ctx : Context} {s : Segments} {p : Pipeline}
    (compiled : segments ctx s = .ok p) : p.size = s.stages.length := by
  obtain ⟨each, -, -⟩ := segments_eq_ok_iff.mp compiled
  rw [Pipeline.size, ← each.length_eq, List.length_zipIdx]

/-- A stage stands at the place of its text. -/
theorem stageAt_of_segments {ctx : Context} {s : Segments} {p : Pipeline} {i : Nat}
    {text : String} {st : Stage} (compiled : segments ctx s = .ok p)
    (written : s.stages[i]? = some text) (placed : p.stages[i]? = some st) :
    stageAt ctx s i text = .ok st := by
  obtain ⟨each, -, -⟩ := segments_eq_ok_iff.mp compiled
  obtain ⟨inText, rfl⟩ := List.getElem?_eq_some_iff.mp written
  obtain ⟨inStages, rfl⟩ := List.getElem?_eq_some_iff.mp placed
  have here := each.get (i := i) (by simpa using inText) inStages
  simpa using here

theorem exists_text_of_segments {ctx : Context} {s : Segments} {p : Pipeline} {i : Nat}
    {st : Stage} (compiled : segments ctx s = .ok p) (placed : p.stages[i]? = some st) :
    ∃ text, s.stages[i]? = some text ∧ stageAt ctx s i text = .ok st := by
  obtain ⟨inStages, -⟩ := List.getElem?_eq_some_iff.mp placed
  rw [← Pipeline.size, size_of_segments compiled] at inStages
  exact ⟨_, List.getElem?_eq_getElem inStages,
    stageAt_of_segments compiled (List.getElem?_eq_getElem inStages) placed⟩

end Compile

end PipeShell
