import Mathlib.Data.List.Perm.Basic
import PipeShell.Installation
import PipeShell.Proofs.Wiring.Chain

/-!
# What a wired pipeline is connected to

Wiring never finds an end or a file missing in a pipeline that a line compiles to, whatever the
machine answers; and when all calls are answered, each pipe joins a stage to the next one, and the
two ends of the pipeline are the shell's own streams or the files that the line names
(`wire_connects_compiled_pipelines`).
-/

set_option autoImplicit false

namespace PipeShell.Wiring

/-- Both sides of a connection. -/
def sides (c : Connection) : List Endpoint := [c.input, c.output]

/-- Both numbers of each pipe. -/
def ends (pipes : List (Nat × Nat)) : List Nat :=
  pipes.flatMap fun pipe => [pipe.1, pipe.2]

/-- The connections of a pipeline that took the machine from `m` to `m'`. -/
structure Connected (p : Pipeline) (m : Machine) (pipes : List (Nat × Nat))
    (connections : List Connection) (m' : Machine) : Prop where
  size : connections.length = p.size
  count : pipes.length = p.size - 1
  /-- As many pipes were made as there are neighbours. -/
  made : m'.pipes.size = m.pipes.size + (p.size - 1)
  /-- The numbers of a pipe stand for its two ends. -/
  piped : ∀ i reader writer, pipes[i]? = some (reader, writer) →
    m'.table.get? reader = some ⟨.pipe (m.pipes.size + i) .reading, true⟩ ∧
      m'.table.get? writer = some ⟨.pipe (m.pipes.size + i) .writing, true⟩
  /-- A stage writes what the next one reads. -/
  joined : ∀ i reader writer, pipes[i]? = some (reader, writer) →
    ∃ c next, connections[i]? = some c ∧ connections[i + 1]? = some next ∧
      c.output = .pipe writer ∧ next.input = .pipe reader
  distinct : (ends pipes).Nodup
  once : ∀ number ∈ ends pipes, (connections.flatMap sides).count (.pipe number) = 1
  inputOwn : p.inputFile = none → connections.head?.map Connection.input = some .stdin
  inputFile : ∀ path, p.inputFile = some path → ∃ number id cursor,
    connections.head?.map Connection.input = some (.file number) ∧
      m.files.findReadable m.cwd (Text.encode path) = .ok id ∧
      m'.table.get? number = some ⟨.node id .reading cursor, true⟩
  outputOwn : p.outputFile = none → connections.getLast?.map Connection.output = some .stdout
  outputFile : ∀ path, p.outputFile = some path → ∃ number id cursor,
    connections.getLast?.map Connection.output = some (.file number) ∧
      m.files.recreate m.cwd (Text.encode path) Machine.outputMode = .ok (m'.files, id) ∧
      m'.table.get? number = some ⟨.node id .writing cursor, true⟩

/-! ## Chains -/

variable {input output : Endpoint} {pipes : List (Nat × Nat)} {m m' : Machine}

theorem length_chain : (chain input pipes output).length = pipes.length + 1 := by
  induction pipes generalizing input with
  | nil => rfl
  | cons pipe pipes ih => rw [chain, List.length_cons, ih, List.length_cons]

theorem exists_cons_of_chain (input : Endpoint) (pipes : List (Nat × Nat)) (output : Endpoint) :
    ∃ c rest, chain input pipes output = c :: rest ∧ c.input = input := by
  cases pipes with
  | nil => exact ⟨_, _, rfl, rfl⟩
  | cons pipe pipes => exact ⟨_, _, rfl, rfl⟩

theorem head?_chain : (chain input pipes output).head?.map Connection.input = some input := by
  obtain ⟨c, rest, shape, same⟩ := exists_cons_of_chain input pipes output
  rw [shape, List.head?_cons, Option.map_some, same]

theorem getLast?_chain :
    (chain input pipes output).getLast?.map Connection.output = some output := by
  induction pipes generalizing input with
  | nil => rfl
  | cons pipe pipes ih =>
      obtain ⟨c, rest, shape, -⟩ := exists_cons_of_chain (.pipe pipe.1) pipes output
      rw [chain, shape, List.getLast?_cons_cons, ← shape]
      exact ih

theorem joined_chain {i reader writer : Nat} (here : pipes[i]? = some (reader, writer)) :
    ∃ c next, (chain input pipes output)[i]? = some c ∧
      (chain input pipes output)[i + 1]? = some next ∧
      c.output = .pipe writer ∧ next.input = .pipe reader := by
  induction pipes generalizing input i with
  | nil => cases here
  | cons pipe pipes ih =>
      cases i with
      | zero =>
          cases here
          obtain ⟨next, rest, shape, same⟩ := exists_cons_of_chain (.pipe reader) pipes output
          rw [chain, shape]
          exact ⟨_, next, rfl, rfl, rfl, same⟩
      | succ i =>
          rw [List.getElem?_cons_succ] at here
          rw [chain, List.getElem?_cons_succ, List.getElem?_cons_succ]
          exact ih here

/-- Going along a chain, both ends of each pipe are met between its two outer ends. -/
theorem sides_chain :
    (chain input pipes output).flatMap sides =
      input :: (pipes.flatMap fun pipe => [.pipe pipe.2, .pipe pipe.1]) ++ [output] := by
  induction pipes generalizing input with
  | nil => rfl
  | cons pipe pipes ih =>
      rw [chain, List.flatMap_cons, ih, List.flatMap_cons]
      rfl

theorem count_sides_chain {number : Nat} (distinct : (ends pipes).Nodup)
    (member : number ∈ ends pipes) (first : input ≠ .pipe number) (last : output ≠ .pipe number) :
    ((chain input pipes output).flatMap sides).count (.pipe number) = 1 := by
  have between : (pipes.flatMap fun pipe => [Endpoint.pipe pipe.2, .pipe pipe.1]).Perm
      ((ends pipes).map Endpoint.pipe) := by
    rw [ends, List.map_flatMap]
    exact List.Perm.flatMap_left _ fun pipe _ => List.Perm.swap ..
  rw [sides_chain, List.cons_append, List.count_cons_of_ne first, List.count_append,
    List.count_singleton, if_neg (by simpa using last), between.count_eq, Nat.add_zero]
  apply List.count_eq_one_of_mem
  · exact distinct.map fun a b same => Endpoint.pipe.inj same
  · exact List.mem_map_of_mem member

/-! ## Descriptors -/

/-- What the numbers of pipes stand for, the first of which is pipe `first` of the machine. -/
def pipeDescriptors (first : Nat) : List (Nat × Nat) → List (Nat × Descriptor)
  | [] => []
  | (reader, writer) :: pipes =>
      (reader, ⟨.pipe first .reading, true⟩) :: (writer, ⟨.pipe first .writing, true⟩) ::
        pipeDescriptors (first + 1) pipes

theorem numbers_pipeDescriptors (first : Nat) (pipes : List (Nat × Nat)) :
    (pipeDescriptors first pipes).map Prod.fst = ends pipes := by
  induction pipes generalizing first with
  | nil => rfl
  | cons pipe pipes ih =>
      rw [pipeDescriptors, List.map_cons, List.map_cons, ih, ends, ends, List.flatMap_cons]
      rfl

theorem mem_pipeDescriptors (first : Nat) {i reader writer : Nat}
    (here : pipes[i]? = some (reader, writer)) :
    (reader, ⟨.pipe (first + i) .reading, true⟩) ∈ pipeDescriptors first pipes ∧
      (writer, ⟨.pipe (first + i) .writing, true⟩) ∈ pipeDescriptors first pipes := by
  induction pipes generalizing first i with
  | nil => cases here
  | cons pipe pipes ih =>
      cases i with
      | zero =>
          cases here
          exact ⟨by simp [pipeDescriptors], by simp [pipeDescriptors]⟩
      | succ i =>
          rw [List.getElem?_cons_succ] at here
          obtain ⟨reads, writes⟩ := ih (first + 1) here
          rw [Nat.add_right_comm] at reads writes
          rw [pipeDescriptors]
          exact ⟨List.mem_cons_of_mem _ (List.mem_cons_of_mem _ reads),
            List.mem_cons_of_mem _ (List.mem_cons_of_mem _ writes)⟩

theorem makesPipes_spec (makes : MakesPipes m pipes m') :
    m.Adds m' (pipeDescriptors m.pipes.size pipes) ∧
      m'.pipes.size = m.pipes.size + pipes.length ∧ m'.files = m.files ∧ m'.cwd = m.cwd := by
  induction makes with
  | none m => exact ⟨.refl m, rfl, rfl, rfl⟩
  | @next m m₁ m₂ pipe pipes opened _ ih =>
      obtain ⟨adds, made, files, cwd⟩ := Machine.openPipe_spec opened
      obtain ⟨laterAdds, laterMade, laterFiles, laterCwd⟩ := ih
      rw [made] at laterAdds laterMade
      refine ⟨adds.trans laterAdds, ?_, laterFiles.trans files, laterCwd.trans cwd⟩
      rw [laterMade, List.length_cons]
      omega

theorem opensInput_spec {file : Option String} {e : Endpoint} (opens : OpensInput file m e m') :
    ∃ added, m.Adds m' added ∧ m'.pipes = m.pipes ∧ m'.files = m.files ∧ m'.cwd = m.cwd ∧
      (∀ number, e ≠ .pipe number) ∧ (file = none → e = .stdin) ∧
      ∀ path, file = some path → ∃ number id cursor, e = .file number ∧
        m.files.findReadable m.cwd (Text.encode path) = .ok id ∧
        (number, ⟨.node id .reading cursor, true⟩) ∈ added := by
  cases opens with
  | own =>
      exact ⟨[], .refl m, rfl, rfl, rfl, by simp, fun _ => rfl, by simp⟩
  | @file _ _ path number opened =>
      obtain ⟨id, found, adds, pipes, files, cwd⟩ := Machine.openInput_spec opened
      refine ⟨_, adds, pipes, files, cwd, by simp, by simp, ?_⟩
      rintro _ ⟨rfl⟩
      exact ⟨number, id, _, rfl, found, List.mem_singleton_self _⟩

theorem opensOutput_spec {file : Option String} {e : Endpoint} (opens : OpensOutput file m e m') :
    ∃ added, m.Adds m' added ∧ m'.pipes = m.pipes ∧
      (∀ number, e ≠ .pipe number) ∧ (file = none → e = .stdout) ∧
      ∀ path, file = some path → ∃ number id cursor, e = .file number ∧
        m.files.recreate m.cwd (Text.encode path) Machine.outputMode = .ok (m'.files, id) ∧
        (number, ⟨.node id .writing cursor, true⟩) ∈ added := by
  cases opens with
  | own =>
      exact ⟨[], .refl m, rfl, by simp, fun _ => rfl, by simp⟩
  | @file _ _ path number opened =>
      obtain ⟨files, id, found, adds, pipes, rfl, -⟩ := Machine.openOutput_spec opened
      refine ⟨_, adds, pipes, by simp, by simp, ?_⟩
      rintro _ ⟨rfl⟩
      exact ⟨number, id, _, rfl, found, List.mem_singleton_self _⟩

/-! ## Connections -/

variable {ctx : Context} {p : Pipeline}

/-- What the calls open is what the chain of them connects. -/
theorem connected_of_opens (coherent : p.Coherent ctx) (opens : Opens p m input pipes output m') :
    Connected p m pipes (chain input pipes output) m' := by
  obtain ⟨count, m₁, m₂, makes, inputOpens, outputOpens⟩ := opens
  obtain ⟨pipeAdds, made, files, cwd⟩ := makesPipes_spec makes
  obtain ⟨inputAdded, inputAdds, inputPipes, inputFiles, inputCwd, inputOther, inputOwn,
    inputFile⟩ := opensInput_spec inputOpens
  obtain ⟨outputAdded, outputAdds, outputPipes, outputOther, outputOwn, outputFile⟩ :=
    opensOutput_spec outputOpens
  have adds := (pipeAdds.trans inputAdds).trans outputAdds
  have distinct : (ends pipes).Nodup := by
    rw [← numbers_pipeDescriptors m.pipes.size]
    exact pipeAdds.distinct
  have positive := coherent.size_pos
  rw [Pipeline.pipeCount] at count
  refine
    { size := ?_
      count := count
      made := ?_
      piped := ?_
      joined := fun i reader writer here => joined_chain here
      distinct := distinct
      once := fun number member =>
        count_sides_chain distinct member (inputOther number) (outputOther number)
      inputOwn := ?_
      inputFile := ?_
      outputOwn := ?_
      outputFile := ?_ }
  · rw [length_chain, count]
    omega
  · rw [outputPipes, inputPipes, made, count]
  · intro i reader writer here
    obtain ⟨reads, writes⟩ := mem_pipeDescriptors m.pipes.size here
    exact ⟨adds.here _ (List.mem_append_left _ (List.mem_append_left _ reads)),
      adds.here _ (List.mem_append_left _ (List.mem_append_left _ writes))⟩
  · intro unnamed
    rw [head?_chain, inputOwn unnamed]
  · intro path named
    obtain ⟨number, id, cursor, rfl, found, member⟩ := inputFile path named
    rw [files, cwd] at found
    exact ⟨number, id, cursor, head?_chain, found,
      adds.here _ (List.mem_append_left _ (List.mem_append_right _ member))⟩
  · intro unnamed
    rw [getLast?_chain, outputOwn unnamed]
  · intro path named
    obtain ⟨number, id, cursor, rfl, found, member⟩ := outputFile path named
    rw [inputFiles, inputCwd, files, cwd] at found
    exact ⟨number, id, cursor, getLast?_chain, found,
      adds.here _ (List.mem_append_right _ member)⟩

/-- Whatever the machine answers, wiring a pipeline that a line compiles to finds every end and
every file that it asks for.  It gives connections just when all calls are answered, and then pipes
join the stages one after the other, each end of them in one place, between the two outer ends. -/
theorem wire_connects_compiled_pipelines (ctx : Context) (line : String) (p : Pipeline)
    (compiled : compile ctx line = .ok p) (m : Machine) :
    (∀ stage index, (wire p m).1 ≠ .error (.missingPipe stage index)) ∧
    (∀ stage, (wire p m).1 ≠ .error (.missingFile stage)) ∧
    (∀ input pipes output m', Opens p m input pipes output m' →
      ∃ connections, wire p m = (.ok connections, m')) ∧
    ∀ connections m', wire p m = (.ok connections, m') →
      ∃ input pipes output, Opens p m input pipes output m' ∧
        Connected p m pipes connections m' := by
  have coherent := coherent_of_compile compiled
  refine ⟨?_, ?_, ?_, ?_⟩
  · intro stage index missing
    rcases call_of_wire_error coherent missing with ⟨_, ⟨⟩⟩ | ⟨_, _, ⟨⟩⟩ | ⟨_, _, ⟨⟩⟩
  · intro stage missing
    rcases call_of_wire_error coherent missing with ⟨_, ⟨⟩⟩ | ⟨_, _, ⟨⟩⟩ | ⟨_, _, ⟨⟩⟩
  · intro input pipes output m' opens
    exact ⟨_, wire_of_opens coherent opens⟩
  · intro connections m' wired
    obtain ⟨input, pipes, output, opens, rfl⟩ := (wire_eq_ok_iff coherent).mp wired
    exact ⟨input, pipes, output, opens, connected_of_opens coherent opens⟩

/-- A context without builtins, aliases and tildes. -/
def bareContext : Context where
  isBuiltin _ := false
  expandAlias := id
  expandTilde := id

/-- A machine with nothing on it. -/
def bareMachine : Machine :=
  Installation.machine .empty FileSystem.root Dictionary.empty

/-- What `sort | uniq` compiles to. -/
def sortUniq : Pipeline where
  stages :=
    [{ name := "sort", argv := ["sort"], isBuiltin := false, input := .stdio, output := .pipe },
      { name := "uniq", argv := ["uniq"], isBuiltin := false, input := .pipe, output := .stdio }]
  inputFile := none
  outputFile := none

/-- Two programs are joined by one pipe. -/
theorem wire_connects_sort_uniq :
    compile bareContext "sort | uniq" = .ok sortUniq ∧
      ∃ pipes, Connected sortUniq bareMachine pipes
        [{ input := .stdin, output := .pipe 4 }, { input := .pipe 3, output := .stdout }]
        (wire sortUniq bareMachine).2 := by
  have compiled : compile bareContext "sort | uniq" = .ok sortUniq := by decide
  obtain ⟨-, -, -, connects⟩ :=
    wire_connects_compiled_pipelines bareContext "sort | uniq" sortUniq compiled bareMachine
  obtain ⟨_, pipes, _, -, connected⟩ := connects _ (wire sortUniq bareMachine).2 rfl
  exact ⟨compiled, pipes, connected⟩

end PipeShell.Wiring
