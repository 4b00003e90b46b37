import PipeShell.Proofs.Compile.Stages
import PipeShell.Proofs.Line.Grammar

/-!
# Coherent pipelines

What wiring and launching take for granted of a pipeline and do not look at again: its channels
follow from the places of its stages and from the files it names, its stages are called by words,
and a builtin has the shell's own streams on both sides.  Every pipeline that a line compiles to is
coherent, whatever the session knows (`coherent_of_compile`); so a builtin stands alone, and a line
that pipes or redirects one does not compile.
-/

set_option autoImplicit false

namespace PipeShell

open Text

structure Pipeline.Coherent (ctx : Context) (p : Pipeline) : Prop where
  staged : p.stages ≠ []
  named : ∀ stage ∈ p.stages, stage.name ≠ "" ∧ hasWhiteSpace stage.name = false
  called : ∀ stage ∈ p.stages, stage.argv.head? = some stage.name
  resolved : ∀ stage ∈ p.stages, stage.isBuiltin = ctx.isBuiltin stage.name
  unconnected : ∀ stage ∈ p.stages, stage.isBuiltin = true →
    stage.input = .stdio ∧ stage.output = .stdio
  inputNamed : p.inputFile.isSome = true ↔
    ∃ stage, p.stages.head? = some stage ∧ stage.input = .file
  inputUnnamed : p.inputFile = none →
    ∀ stage, p.stages.head? = some stage → stage.input = .stdio
  inputPiped : ∀ i stage, p.stages[i + 1]? = some stage → stage.input = .pipe
  outputNamed : p.outputFile.isSome = true ↔
    ∃ stage, p.stages.getLast? = some stage ∧ stage.output = .file
  outputUnnamed : p.outputFile = none →
    ∀ stage, p.stages.getLast? = some stage → stage.output = .stdio
  outputPiped : ∀ i stage, i + 1 < p.size → p.stages[i]? = some stage → stage.output = .pipe

/-- The channel at an end of a pipeline that has a file there or has none. -/
def Channel.outer (file : Option String) : Channel :=
  if file.isSome then .file else .stdio

theorem Channel.outer_eq_file_iff {file : Option String} :
    outer file = .file ↔ file.isSome = true := by
  unfold outer
  split <;> simp_all

theorem Channel.outer_eq_stdio_iff {file : Option String} :
    outer file = .stdio ↔ file = none := by
  cases file <;> simp [outer]

namespace Pipeline.Coherent

variable {ctx : Context} {p : Pipeline}

theorem size_pos (coherent : p.Coherent ctx) : 0 < p.size :=
  List.length_pos_iff.mpr coherent.staged

theorem input_head (coherent : p.Coherent ctx) {stage : Stage}
    (first : p.stages.head? = some stage) : stage.input = .outer p.inputFile := by
  cases named : p.inputFile with
  | none => exact coherent.inputUnnamed named stage first
  | some path =>
      obtain ⟨other, also, filed⟩ := coherent.inputNamed.mp (by rw [named]; rfl)
      rw [first, Option.some.injEq] at also
      subst also
      exact filed

theorem output_getLast (coherent : p.Coherent ctx) {stage : Stage}
    (last : p.stages.getLast? = some stage) : stage.output = .outer p.outputFile := by
  cases named : p.outputFile with
  | none => exact coherent.outputUnnamed named stage last
  | some path =>
      obtain ⟨other, also, filed⟩ := coherent.outputNamed.mp (by rw [named]; rfl)
      rw [last, Option.some.injEq] at also
      subst also
      exact filed

/-- A builtin is a whole pipeline, and one that names no file. -/
theorem alone (coherent : p.Coherent ctx) {stage : Stage} (member : stage ∈ p.stages)
    (builtin : stage.isBuiltin = true) :
    p.size = 1 ∧ p.inputFile = none ∧ p.outputFile = none := by
  obtain ⟨input, output⟩ := coherent.unconnected stage member builtin
  obtain ⟨i, placed⟩ := List.getElem?_of_mem member
  have first : i = 0 := by
    cases i with
    | zero => rfl
    | succ i =>
        rw [coherent.inputPiped i stage placed] at input
        cases input
  have single : p.size = 1 := by
    by_contra several
    have inner : i + 1 < p.size := by
      have := coherent.size_pos
      omega
    rw [coherent.outputPiped i stage inner placed] at output
    cases output
  obtain ⟨only, shape⟩ := List.length_eq_one_iff.mp single
  rw [shape, List.mem_singleton] at member
  subst member
  have headed : p.stages.head? = some stage := by rw [shape]; rfl
  have ended : p.stages.getLast? = some stage := by rw [shape]; rfl
  rw [coherent.input_head headed] at input
  rw [coherent.output_getLast ended] at output
  exact ⟨single, Channel.outer_eq_stdio_iff.mp input, Channel.outer_eq_stdio_iff.mp output⟩

end Pipeline.Coherent

namespace Compile

variable {ctx : Context} {s : Segments} {p : Pipeline}

/-! ## Channels by place -/

/-- Where a stage stands says what it is connected to. -/
theorem channels_of_segments {i : Nat} {st : Stage} (compiled : segments ctx s = .ok p)
    (placed : p.stages[i]? = some st) :
    (st.input, st.output) = channels i p.size p.inputFile.isSome p.outputFile.isSome := by
  obtain ⟨text, -, here⟩ := exists_text_of_segments compiled placed
  obtain ⟨name, rest, -, -, rfl⟩ := stage_eq_ok_iff.mp here
  obtain ⟨-, input, output⟩ := segments_eq_ok_iff.mp compiled
  rw [size_of_segments compiled, ← input, ← output]

theorem input_of_segments {i : Nat} {st : Stage} (compiled : segments ctx s = .ok p)
    (placed : p.stages[i]? = some st) :
    st.input = if i = 0 then .outer p.inputFile else .pipe := by
  have here := congrArg Prod.fst (channels_of_segments compiled placed)
  by_cases first : i = 0
  · simpa [channels, first, Channel.outer] using here
  · simpa [channels, first] using here

theorem output_of_segments {i : Nat} {st : Stage} (compiled : segments ctx s = .ok p)
    (placed : p.stages[i]? = some st) :
    st.output = if i + 1 = p.size then .outer p.outputFile else .pipe := by
  have here := congrArg Prod.snd (channels_of_segments compiled placed)
  by_cases last : i + 1 = p.size
  · simpa [channels, last, Channel.outer] using here
  · simpa [channels, last] using here

theorem input_head_of_segments (compiled : segments ctx s = .ok p) {stage : Stage}
    (first : p.stages.head? = some stage) : stage.input = .outer p.inputFile := by
  rw [List.head?_eq_getElem?] at first
  rw [input_of_segments compiled first, if_pos rfl]

theorem output_getLast_of_segments (compiled : segments ctx s = .ok p) {stage : Stage}
    (last : p.stages.getLast? = some stage) : stage.output = .outer p.outputFile := by
  have filled : 0 < p.stages.length := List.length_pos_of_mem (List.mem_of_getLast? last)
  rw [List.getLast?_eq_getElem?] at last
  have place : p.stages.length - 1 + 1 = p.size := Nat.sub_add_cancel filled
  rw [output_of_segments compiled last, if_pos place]

/-! ## Coherence -/

/-- What a single stage has of its words and of the session. -/
theorem stage_of_segments (compiled : segments ctx s = .ok p) {stage : Stage}
    (member : stage ∈ p.stages) :
    (stage.name ≠ "" ∧ hasWhiteSpace stage.name = false) ∧
      stage.argv.head? = some stage.name ∧ stage.isBuiltin = ctx.isBuiltin stage.name ∧
      (stage.isBuiltin = true → stage.input = .stdio ∧ stage.output = .stdio) := by
  obtain ⟨i, placed⟩ := List.getElem?_of_mem member
  obtain ⟨text, -, here⟩ := exists_text_of_segments compiled placed
  obtain ⟨name, rest, called, alone, rfl⟩ := stage_eq_ok_iff.mp here
  exact ⟨name_of_arguments called, List.head?_cons, rfl, alone⟩

theorem coherent_of_segments (staged : s.stages ≠ []) (compiled : segments ctx s = .ok p) :
    p.Coherent ctx := by
  have filled : p.stages ≠ [] := by
    rw [← List.length_pos_iff, ← Pipeline.size, size_of_segments compiled]
    exact List.length_pos_iff.mpr staged
  have first := List.head?_eq_some_head filled
  have last := List.getLast?_eq_some_getLast filled
  refine
    { staged := filled
      named := fun stage member => (stage_of_segments compiled member).1
      called := fun stage member => (stage_of_segments compiled member).2.1
      resolved := fun stage member => (stage_of_segments compiled member).2.2.1
      unconnected := fun stage member => (stage_of_segments compiled member).2.2.2
      inputNamed := ⟨fun named => ⟨_, first, ?_⟩, ?_⟩
      inputUnnamed := ?_
      inputPiped := ?_
      outputNamed := ⟨fun named => ⟨_, last, ?_⟩, ?_⟩
      outputUnnamed := ?_
      outputPiped := ?_ }
  · exact (input_head_of_segments compiled first).trans (Channel.outer_eq_file_iff.mpr named)
  · rintro ⟨stage, headed, filed⟩
    rw [input_head_of_segments compiled headed] at filed
    exact Channel.outer_eq_file_iff.mp filed
  · intro unnamed stage headed
    rw [input_head_of_segments compiled headed]
    exact Channel.outer_eq_stdio_iff.mpr unnamed
  · intro i stage placed
    rw [input_of_segments compiled placed, if_neg (Nat.succ_ne_zero i)]
  · exact (output_getLast_of_segments compiled last).trans (Channel.outer_eq_file_iff.mpr named)
  · rintro ⟨stage, ended, filed⟩
    rw [output_getLast_of_segments compiled ended] at filed
    exact Channel.outer_eq_file_iff.mp filed
  · intro unnamed stage ended
    rw [output_getLast_of_segments compiled ended]
    exact Channel.outer_eq_stdio_iff.mpr unnamed
  · intro i stage inner placed
    rw [output_of_segments compiled placed, if_neg (Nat.ne_of_lt inner)]

/-- Each text gives the arguments of its stage. -/
theorem arguments_of_segments (compiled : segments ctx s = .ok p) :
    List.Forall₂ (fun text stage => arguments ctx text = stage.argv) s.stages p.stages := by
  rw [List.forall₂_iff_get]
  refine ⟨(size_of_segments compiled).symm, fun i inText inStages => ?_⟩
  have here := stageAt_of_segments compiled (List.getElem?_eq_getElem inText)
    (List.getElem?_eq_getElem inStages)
  obtain ⟨name, rest, called, -, same⟩ := stage_eq_ok_iff.mp here
  rw [List.get_eq_getElem, List.get_eq_getElem, called, ← same]

end Compile

/-! ## Lines -/

variable {ctx : Context} {line : String} {p : Pipeline}

theorem coherent_of_compile (compiled : compile ctx line = .ok p) : p.Coherent ctx := by
  obtain ⟨s, accepted, compiled⟩ := compile_eq_ok_iff.mp compiled
  exact Compile.coherent_of_segments (Line.stages_ne_nil_of_parse accepted) compiled

/-- A text is called by the name of a builtin, after its alias is taken in. -/
def Compile.ResolvesToBuiltin (ctx : Context) (text : String) : Prop :=
  ∃ name rest, arguments ctx text = name :: rest ∧ ctx.isBuiltin name = true

/-- A pipeline that some text of the line gives a builtin is nothing else. -/
theorem alone_of_resolves {s : Segments} (staged : s.stages ≠ [])
    (compiled : Compile.segments ctx s = .ok p) {text : String} (member : text ∈ s.stages)
    (resolves : Compile.ResolvesToBuiltin ctx text) :
    s.stages.length = 1 ∧ s.input = none ∧ s.output = none := by
  obtain ⟨i, written⟩ := List.getElem?_of_mem member
  obtain ⟨inText, -⟩ := List.getElem?_eq_some_iff.mp written
  have inStages : i < p.stages.length := by
    rw [← Pipeline.size, Compile.size_of_segments compiled]
    exact inText
  have here := Compile.stageAt_of_segments compiled written (List.getElem?_eq_getElem inStages)
  obtain ⟨name, rest, called, -, same⟩ := Compile.stage_eq_ok_iff.mp here
  obtain ⟨name', rest', called', builtin⟩ := resolves
  rw [called, List.cons.injEq] at called'
  obtain ⟨rfl, -⟩ := called'
  have isBuiltin : p.stages[i].isBuiltin = true := by rw [← same, builtin]
  obtain ⟨single, input, output⟩ := (Compile.coherent_of_segments staged compiled).alone
    (List.getElem_mem inStages) isBuiltin
  obtain ⟨-, sameInput, sameOutput⟩ := Compile.segments_eq_ok_iff.mp compiled
  exact ⟨(Compile.size_of_segments compiled).symm.trans single, sameInput.trans input,
    sameOutput.trans output⟩

/-- Every pipeline that a line compiles to is coherent and has the stages that the line has, and a
builtin in it is all there is.  A line that pipes or redirects a builtin does not compile. -/
theorem compile_gives_coherent_pipelines (ctx : Context) (line : String) :
    (∀ p, compile ctx line = .ok p →
      (∃ s, Line.parse line = .ok s ∧ s.input = p.inputFile ∧ s.output = p.outputFile ∧
        List.Forall₂ (fun text stage => Compile.arguments ctx text = stage.argv)
          s.stages p.stages) ∧
      p.Coherent ctx ∧
      ∀ stage ∈ p.stages, stage.isBuiltin = true →
        p.size = 1 ∧ p.inputFile = none ∧ p.outputFile = none) ∧
    ∀ s, Line.parse line = .ok s →
      (1 < s.stages.length ∨ s.input.isSome = true ∨ s.output.isSome = true) →
      (∃ text ∈ s.stages, Compile.ResolvesToBuiltin ctx text) →
      ∃ cause, compile ctx line = .error cause := by
  constructor
  · intro p compiled
    have coherent := coherent_of_compile compiled
    obtain ⟨s, accepted, fromSegments⟩ := compile_eq_ok_iff.mp compiled
    obtain ⟨-, input, output⟩ := Compile.segments_eq_ok_iff.mp fromSegments
    refine ⟨⟨s, accepted, input, output, Compile.arguments_of_segments fromSegments⟩, coherent, ?_⟩
    intro stage member builtin
    exact coherent.alone member builtin
  · rintro s accepted connected ⟨text, member, resolves⟩
    cases outcome : compile ctx line with
    | error cause => exact ⟨cause, rfl⟩
    | ok p =>
        obtain ⟨s', accepted', compiled⟩ := compile_eq_ok_iff.mp outcome
        rw [accepted, Except.ok.injEq] at accepted'
        subst accepted'
        obtain ⟨single, unread, unwritten⟩ := alone_of_resolves
          (Line.stages_ne_nil_of_parse accepted) compiled member resolves
        rw [single, unread, unwritten] at connected
        simp at connected

end PipeShell
