import PipeShell.Proofs.Wiring.Connected

/-!
# The output file is opened last

The calls that a pipeline `demands` are its pipes, its input file and its output file.  Wiring makes
them in this order up to the first that is refused, and then only closes descriptors
(`FallsShort`).  A call that reaches the system uses up its place among the faults, so the machine
that is left tells how many there were: none is made again.

Opening the output file empties it.  It is the last of the calls and stands among them once, so a
pipeline that cannot be wired leaves all files as they were
(`wire_opens_output_last`).
-/

set_option autoImplicit false

namespace PipeShell.Wiring

/-! ## Calls in turn -/

/-- A call that asks for descriptors. -/
inductive Call where
  | pipe
  | input (path : String)
  | output (path : String)
  deriving DecidableEq, Repr

/-- Whether the machine answers a call with what is asked for, and the machine after the call. -/
def Call.make (m : Machine) : Call → Bool × Machine
  | pipe => (m.openPipe.1.toBool, m.openPipe.2)
  | input path => ((m.openInput path).1.toBool, (m.openInput path).2)
  | output path => ((m.openOutput path).1.toBool, (m.openOutput path).2)

/-- All calls are made, one after the other, and all are answered. -/
inductive Answers : Machine → List Call → Machine → Prop where
  | none (m : Machine) : Answers m [] m
  | next {m m₁ m₂ : Machine} {c : Call} {calls : List Call} :
      c.make m = (true, m₁) → Answers m₁ calls m₂ → Answers m (c :: calls) m₂

/-- What a pipeline asks the machine for, in this order. -/
def demands (p : Pipeline) : List Call :=
  List.replicate p.pipeCount .pipe ++ (p.inputFile.map Call.input).toList ++
    (p.outputFile.map Call.output).toList

/-- One of the calls is refused: those before it were answered, those behind it are not made, and
descriptors are closed. -/
inductive FallsShort (p : Pipeline) (m : Machine) : Machine → Prop where
  | intro {m₁ m₂ : Machine} {before after : List Call} {c : Call}
      (whole : demands p = before ++ c :: after) (answered : Answers m before m₁)
      (refused : c.make m₁ = (false, m₂)) (numbers : List Nat) :
      FallsShort p m (m₂.closeAll numbers)

variable {m m' m₁ m₂ : Machine} {p : Pipeline} {c : Call} {calls first second : List Call}
  {file : Option String} {e : Endpoint}

theorem Answers.append (before : Answers m first m₁) (behind : Answers m₁ second m₂) :
    Answers m (first ++ second) m₂ := by
  induction before with
  | none => exact behind
  | next answered _ ih => exact .next answered (ih behind)

theorem Answers.single (answered : c.make m = (true, m')) : Answers m [c] m' :=
  .next answered (.none m')

theorem answers_of_makesPipes {pipes : List (Nat × Nat)} (made : MakesPipes m pipes m') :
    Answers m (List.replicate pipes.length .pipe) m' := by
  induction made with
  | none m => exact .none m
  | next opened _ ih => exact .next (by rw [Call.make, opened]; rfl) ih

theorem answers_of_opensInput (opens : OpensInput file m e m') :
    Answers m (file.map Call.input).toList m' := by
  cases opens with
  | own => exact .none m
  | file opened => exact .single (by rw [Call.make, opened]; rfl)

theorem answers_of_opensOutput (opens : OpensOutput file m e m') :
    Answers m (file.map Call.output).toList m' := by
  cases opens with
  | own => exact .none m
  | file opened => exact .single (by rw [Call.make, opened]; rfl)

/-! ## Calls and files -/

theorem files_closeAll (m : Machine) (numbers : List Nat) :
    (m.closeAll numbers).files = m.files := by
  induction numbers generalizing m with
  | nil => rfl
  | cons number numbers ih => exact ih (m.close number)

/-- A call changes files only if it opens an output file and is answered. -/
theorem files_make {answered : Bool} (made : c.make m = (answered, m'))
    (sparing : answered = false ∨ ∀ path, c ≠ .output path) : m'.files = m.files := by
  cases c with
  | pipe =>
      rcases outcome : m.openPipe with ⟨cause | ⟨reader, writer⟩, m''⟩
      all_goals
        rw [Call.make, outcome] at made
        cases made
      · obtain ⟨faults, rfl⟩ := Machine.eq_of_openPipe_error outcome
        rfl
      · obtain ⟨-, -, files, -⟩ := Machine.openPipe_spec outcome
        exact files
  | input path =>
      rcases outcome : m.openInput path with ⟨cause | number, m''⟩
      all_goals
        rw [Call.make, outcome] at made
        cases made
      · obtain ⟨faults, rfl⟩ := Machine.eq_of_openInput_error outcome
        rfl
      · obtain ⟨_, -, -, -, files, -⟩ := Machine.openInput_spec outcome
        exact files
  | output path =>
      rcases outcome : m.openOutput path with ⟨cause | number, m''⟩
      all_goals
        rw [Call.make, outcome] at made
        cases made
      · obtain ⟨faults, rfl⟩ := Machine.eq_of_openOutput_error outcome
        rfl
      · rcases sparing with ⟨⟨⟩⟩ | other
        exact absurd rfl (other path)

theorem Answers.files (answers : Answers m calls m') (sparing : ∀ path, .output path ∉ calls) :
    m'.files = m.files := by
  induction answers with
  | none => rfl
  | next answered _ ih =>
      rw [ih fun path member => sparing path (List.mem_cons_of_mem _ member)]
      refine files_make answered (Or.inr ?_)
      rintro path rfl
      exact sparing path List.mem_cons_self

theorem output_last {before after : List Call} {path : String}
    (whole : demands p = before ++ .output path :: after) :
    after = [] ∧ p.outputFile = some path ∧ ∀ other, .output other ∉ before := by
  have others : ∀ other, Call.output other ∉
      List.replicate p.pipeCount .pipe ++ (p.inputFile.map Call.input).toList := by
    simp
  unfold demands at whole
  -- what stands before the output file matters only by holding none
  generalize List.replicate p.pipeCount .pipe ++ (p.inputFile.map Call.input).toList = front
    at whole others
  cases named : p.outputFile with
  | none =>
      rw [named, Option.map_none, Option.toList_none, List.append_nil] at whole
      exact absurd (whole ▸ List.mem_append_right _ List.mem_cons_self) (others path)
  | some last =>
      rw [named, Option.map_some, Option.toList_some] at whole
      rcases List.eq_nil_or_concat after with rfl | ⟨after, final, rfl⟩
      · obtain ⟨rfl, same⟩ := List.append_inj' whole rfl
        cases same
        exact ⟨rfl, rfl, others⟩
      · rw [List.concat_eq_append, ← List.cons_append, ← List.append_assoc] at whole
        obtain ⟨rfl, -⟩ := List.append_inj' whole rfl
        exact absurd (List.mem_append_right _ List.mem_cons_self) (others path)

theorem FallsShort.files (short : FallsShort p m m') : m'.files = m.files := by
  obtain @⟨_, _, before, after, c, whole, answered, refused, numbers⟩ := short
  rw [files_closeAll, files_make refused (Or.inl rfl)]
  apply answered.files
  intro path member
  obtain ⟨first, second, rfl⟩ := List.append_of_mem member
  rw [List.append_assoc, List.cons_append] at whole
  -- the refused call would stand behind the output file
  have nothing : second ++ c :: after = [] := (output_last whole).1
  exact List.append_ne_nil_of_right_ne_nil second (List.cons_ne_nil c after) nothing

/-! ## Wiring -/

variable {ctx : Context}

theorem answers_of_wire (coherent : p.Coherent ctx) {connections : List Connection}
    (wired : wire p m = (.ok connections, m')) : Answers m (demands p) m' := by
  obtain ⟨input, pipes, output, opens, -⟩ := (wire_eq_ok_iff coherent).mp wired
  obtain ⟨m₁, m₂, made, inputOpens, outputOpens⟩ := opens.calls
  rw [demands, ← opens.count]
  exact ((answers_of_makesPipes made).append (answers_of_opensInput inputOpens)).append
    (answers_of_opensOutput outputOpens)

theorem fallsShort_of_wire (coherent : p.Coherent ctx) {cause : ResourceError}
    (failed : wire p m = (.error cause, m')) : FallsShort p m m' := by
  have course := course_wire coherent m
  rw [failed] at course
  cases course with
  | @unpiped _ _ pipes _ made fewer refused numbers =>
      obtain ⟨more, count⟩ := Nat.exists_eq_add_of_lt fewer
      have whole : demands p = List.replicate pipes.length .pipe ++ .pipe ::
          (List.replicate more .pipe ++ (p.inputFile.map Call.input).toList ++
            (p.outputFile.map Call.output).toList) := by
        rw [demands, count, Nat.add_assoc, List.replicate_add, List.replicate_succ]
        simp only [List.append_assoc, List.cons_append]
      exact ⟨whole, answers_of_makesPipes made, by rw [Call.make, refused]; rfl, numbers⟩
  | @unread _ _ pipes path _ made count named refused numbers =>
      have whole : demands p = List.replicate pipes.length .pipe ++ .input path ::
          (p.outputFile.map Call.output).toList := by
        rw [demands, count, named, Option.map_some, Option.toList_some, List.append_assoc,
          List.singleton_append]
      exact ⟨whole, answers_of_makesPipes made, by rw [Call.make, refused]; rfl, numbers⟩
  | @unwritten _ _ _ pipes _ path _ made count inputOpens named refused numbers =>
      have whole : demands p = List.replicate pipes.length .pipe ++
          (p.inputFile.map Call.input).toList ++ [.output path] := by
        rw [demands, count, named, Option.map_some, Option.toList_some]
      exact ⟨whole, (answers_of_makesPipes made).append (answers_of_opensInput inputOpens),
        by rw [Call.make, refused]; rfl, numbers⟩

/-- Whatever the machine refuses, a pipeline that a line compiles to leaves all files as they were
when it cannot be wired.  Wiring makes the calls that the pipeline demands, in turn and up to the
first that is refused, and the output file is opened by the last of them and by no other. -/
theorem wire_opens_output_last (ctx : Context) (line : String) (p : Pipeline)
    (compiled : compile ctx line = .ok p) (m : Machine) :
    (∀ cause m', wire p m = (.error cause, m') → m'.files = m.files) ∧
    (∀ cause m', wire p m = (.error cause, m') → FallsShort p m m') ∧
    (∀ connections m', wire p m = (.ok connections, m') → Answers m (demands p) m') ∧
    ∀ before path after, demands p = before ++ .output path :: after →
      after = [] ∧ p.outputFile = some path ∧ ∀ other, .output other ∉ before := by
  have coherent := coherent_of_compile compiled
  refine ⟨?_, ?_, ?_, ?_⟩
  · intro cause m' failed
    exact (fallsShort_of_wire coherent failed).files
  · intro cause m' failed
    exact fallsShort_of_wire coherent failed
  · intro connections m' wired
    exact answers_of_wire coherent wired
  · intro before path after whole
    exact output_last whole

/-- What `sort | uniq < data > out` compiles to. -/
def sortData : Pipeline where
  stages :=
    [{ name := "sort", argv := ["sort"], isBuiltin := false, input := .file, output := .pipe },
      { name := "uniq", argv := ["uniq"], isBuiltin := false, input := .pipe, output := .file }]
  inputFile := some "data"
  outputFile := some "out"

/-- A machine that makes a pipe and then denies a file. -/
def denyingMachine : Machine :=
  { bareMachine with faults := [none, some .accessDenied] }

/-- Where the input is denied after the pipe was made, nothing becomes of the output file. -/
theorem wire_spares_output_of_denied_input :
    compile bareContext "sort | uniq < data > out" = .ok sortData ∧
      (wire sortData denyingMachine).1 = .error (.openInput "data" (.system .accessDenied)) ∧
      (wire sortData denyingMachine).2.files = denyingMachine.files := by
  have compiled : compile bareContext "sort | uniq < data > out" = .ok sortData := by decide
  have failed : (wire sortData denyingMachine).1 =
      .error (.openInput "data" (.system .accessDenied)) := by decide
  obtain ⟨spares, -⟩ :=
    wire_opens_output_last bareContext "sort | uniq < data > out" sortData compiled denyingMachine
  exact ⟨compiled, failed, spares _ (wire sortData denyingMachine).2 (Prod.ext failed rfl)⟩

end PipeShell.Wiring
