import PipeShell.Proofs.Compile.Coherence
import PipeShell.Proofs.Machine.Gains
import PipeShell.Wiring

/-!
# Wiring a coherent pipeline

For a coherent pipeline wiring is a straight sequence of calls: one pipe after the other, then the
input file, then the output file (`Opens`).  It gives connections just when all of these calls are
answered, and the connections are the `chain` of the pipes between the two ends
(`wire_eq_ok_iff`).  Where a call fails, wiring fails for that reason (`call_of_wire_error`), so no
stage ever asks for an end or a file that is not there.  The call that fails is the last one: after
it descriptors are closed and nothing else is done (`Course`).
-/

set_option autoImplicit false

namespace PipeShell

namespace Wiring

/-! ## The calls -/

/-- Pipes made one after the other, each by the numbers of its reading and its writing end. -/
inductive MakesPipes : Machine → List (Nat × Nat) → Machine → Prop where
  | none (m : Machine) : MakesPipes m [] m
  | next {m m₁ m₂ : Machine} {pipe : Nat × Nat} {pipes : List (Nat × Nat)} :
      m.openPipe = (.ok pipe, m₁) → MakesPipes m₁ pipes m₂ → MakesPipes m (pipe :: pipes) m₂

/-- What the first stage reads: the file that is named, or the shell's own input. -/
inductive OpensInput : Option String → Machine → Endpoint → Machine → Prop where
  | own (m : Machine) : OpensInput none m .stdin m
  | file {m m₁ : Machine} {path : String} {number : Nat} :
      m.openInput path = (.ok number, m₁) → OpensInput (some path) m (.file number) m₁

/-- What the last stage writes. -/
inductive OpensOutput : Option String → Machine → Endpoint → Machine → Prop where
  | own (m : Machine) : OpensOutput none m .stdout m
  | file {m m₁ : Machine} {path : String} {number : Nat} :
      m.openOutput path = (.ok number, m₁) → OpensOutput (some path) m (.file number) m₁

/-- All calls that a pipeline needs, each of them answered. -/
structure Opens (p : Pipeline) (m : Machine) (input : Endpoint) (pipes : List (Nat × Nat))
    (output : Endpoint) (m' : Machine) : Prop where
  count : pipes.length = p.pipeCount
  calls : ∃ m₁ m₂, MakesPipes m pipes m₁ ∧ OpensInput p.inputFile m₁ input m₂ ∧
    OpensOutput p.outputFile m₂ output m'

/-- Neighbours joined by pipes, between an input and an output. -/
def chain (input : Endpoint) : List (Nat × Nat) → Endpoint → List Connection
  | [], output => [{ input, output }]
  | (reader, writer) :: pipes, output =>
      { input, output := .pipe writer } :: chain (.pipe reader) pipes output

/-! ## Ends that are left -/

/-- What is left of the pipe at place `i` when the first `readers` reading ends and the first
`writers` writing ends are taken. -/
def leftAt (readers writers i : Nat) (pipe : Nat × Nat) : PipeEnds :=
  { reader := if readers ≤ i then some pipe.1 else none
    writer := if writers ≤ i then some pipe.2 else none }

def left (readers writers : Nat) (pipes : List (Nat × Nat)) : List PipeEnds :=
  pipes.mapIdx (leftAt readers writers)

theorem getElem?_left {readers writers i : Nat} {pipes : List (Nat × Nat)} {pipe : Nat × Nat}
    (here : pipes[i]? = some pipe) :
    (left readers writers pipes)[i]? = some (leftAt readers writers i pipe) := by
  rw [left, List.getElem?_mapIdx, here, Option.map_some]

theorem set_mapIdx {α β : Type} {list : List α} {f g : Nat → α → β} {k : Nat} {a : α}
    (here : list[k]? = some a) (elsewhere : ∀ i, i ≠ k → f i = g i) :
    (list.mapIdx f).set k (g k a) = list.mapIdx g := by
  apply List.ext_getElem?
  intro i
  obtain ⟨lt, -⟩ := List.getElem?_eq_some_iff.mp here
  by_cases same : k = i
  · subst same
    rw [List.getElem?_set_self (by simpa using lt), List.getElem?_mapIdx, here, Option.map_some]
  · rw [List.getElem?_set_ne same, List.getElem?_mapIdx, List.getElem?_mapIdx,
      elsewhere i (Ne.symm same)]

/-- Taking the next reading end leaves one less. -/
theorem takeReader_left {k writers : Nat} {pipes : List (Nat × Nat)} {pipe : Nat × Nat}
    (here : pipes[k]? = some pipe) :
    takeReader (k + 1) (left k writers pipes) = .ok (pipe.1, left (k + 1) writers pipes) := by
  have taken : (left k writers pipes).set k (leftAt (k + 1) writers k pipe) =
      left (k + 1) writers pipes := by
    apply set_mapIdx (g := leftAt (k + 1) writers) here
    intro i different
    have same : k + 1 ≤ i ↔ k ≤ i := by omega
    funext pipe
    simp only [leftAt, same]
  have gone : ¬ k + 1 ≤ k := by omega
  rw [← taken]
  simp [takeReader, getElem?_left here, leftAt, gone]

/-- Taking the next writing end leaves one less. -/
theorem takeWriter_left {readers k : Nat} {pipes : List (Nat × Nat)} {pipe : Nat × Nat}
    (here : pipes[k]? = some pipe) :
    takeWriter k (left readers k pipes) = .ok (pipe.2, left readers (k + 1) pipes) := by
  have taken : (left readers k pipes).set k (leftAt readers (k + 1) k pipe) =
      left readers (k + 1) pipes := by
    apply set_mapIdx (g := leftAt readers (k + 1)) here
    intro i different
    have same : k + 1 ≤ i ↔ k ≤ i := by omega
    funext pipe
    simp only [leftAt, same]
  have gone : ¬ k + 1 ≤ k := by omega
  rw [← taken]
  simp [takeWriter, getElem?_left here, leftAt, gone]

/-- When every end is taken, there is nothing to close. -/
theorem owned_left {k : Nat} {pipes : List (Nat × Nat)} (all : pipes.length ≤ k) :
    (left k k pipes).flatMap PipeEnds.owned = [] := by
  rw [List.flatMap_eq_nil_iff]
  intro ends member
  obtain ⟨i, lt, rfl⟩ := List.mem_mapIdx.mp member
  have taken : ¬ k ≤ i := by omega
  simp [leftAt, taken, PipeEnds.owned]

/-! ## One side of a stage -/

variable {m m' : Machine} {file : Option String} {i k readers writers : Nat}
  {ends : List PipeEnds} {pipes : List (Nat × Nat)} {pipe : Nat × Nat} {e : Endpoint}

theorem connectInput_pipe (here : pipes[k]? = some pipe) :
    connectInput file (k + 1) .pipe (left k writers pipes) m =
      (.ok (.pipe pipe.1, left (k + 1) writers pipes), m) := by
  simp only [connectInput, takeReader_left here]

theorem connectOutput_pipe (here : pipes[k]? = some pipe) :
    connectOutput file k .pipe (left readers k pipes) m =
      (.ok (.pipe pipe.2, left readers (k + 1) pipes), m) := by
  simp only [connectOutput, takeWriter_left here]

theorem connectInput_outer (opens : OpensInput file m e m') :
    connectInput file i (.outer file) ends m = (.ok (e, ends), m') := by
  cases opens with
  | own => rfl
  | file opened => simp only [connectInput, Channel.outer, Option.isSome_some, if_true, opened]

theorem connectOutput_outer (opens : OpensOutput file m e m') :
    connectOutput file i (.outer file) ends m = (.ok (e, ends), m') := by
  cases opens with
  | own => rfl
  | file opened => simp only [connectOutput, Channel.outer, Option.isSome_some, if_true, opened]

/-- Only a named file can fail to open. -/
theorem opensInput_or_fails (file : Option String) (m : Machine) :
    (∃ e m', OpensInput file m e m') ∨
      ∃ path cause m', file = some path ∧ m.openInput path = (.error cause, m') := by
  cases file with
  | none => exact Or.inl ⟨_, _, .own m⟩
  | some path =>
      rcases outcome : m.openInput path with ⟨cause | number, m'⟩
      · exact Or.inr ⟨path, cause, m', rfl, outcome⟩
      · exact Or.inl ⟨_, _, .file outcome⟩

theorem opensOutput_or_fails (file : Option String) (m : Machine) :
    (∃ e m', OpensOutput file m e m') ∨
      ∃ path cause m', file = some path ∧ m.openOutput path = (.error cause, m') := by
  cases file with
  | none => exact Or.inl ⟨_, _, .own m⟩
  | some path =>
      rcases outcome : m.openOutput path with ⟨cause | number, m'⟩
      · exact Or.inr ⟨path, cause, m', rfl, outcome⟩
      · exact Or.inl ⟨_, _, .file outcome⟩

theorem connectInput_fails {path : String} {cause : FileFailure}
    (failed : m.openInput path = (.error cause, m')) :
    connectInput (some path) i (.outer (some path)) ends m =
      (.error (.openInput path cause), m') := by
  simp only [connectInput, Channel.outer, Option.isSome_some, if_true, failed]

theorem connectOutput_fails {path : String} {cause : FileFailure}
    (failed : m.openOutput path = (.error cause, m')) :
    connectOutput (some path) i (.outer (some path)) ends m =
      (.error (.openOutput path cause), m') := by
  simp only [connectOutput, Channel.outer, Option.isSome_some, if_true, failed]

/-! ## All stages -/

variable {ctx : Context} {p : Pipeline} {m₁ : Machine}

theorem stage_of_drop {stage : Stage} {rest : List Stage}
    (shape : p.stages.drop k = stage :: rest) :
    p.stages[k]? = some stage ∧ p.stages.drop (k + 1) = rest ∧ k + 1 + rest.length = p.size := by
  have here := congrArg List.head? shape
  have later := congrArg List.tail shape
  have length := congrArg List.length shape
  rw [List.head?_drop, List.head?_cons] at here
  rw [List.tail_drop, List.tail_cons] at later
  rw [List.length_drop, List.length_cons] at length
  refine ⟨here, later, ?_⟩
  rw [Pipeline.size]
  omega

/-- From a stage on that has its input, only the output file can be refused: all other sides get
ends of pipes that are left for them. -/
theorem connectAll_of_input (coherent : p.Coherent ctx) (count : pipes.length = p.pipeCount)
    {stage : Stage} {rest : List Stage} (shape : p.stages.drop k = stage :: rest)
    (connected : connectInput p.inputFile k stage.input ends m = (.ok (e, left k k pipes), m₁)) :
    (∀ output m', OpensOutput p.outputFile m₁ output m' →
      connectAll p.inputFile p.outputFile k (stage :: rest) ends m =
        (.ok (chain e (pipes.drop k) output), m')) ∧
    ∀ path cause m', p.outputFile = some path → m₁.openOutput path = (.error cause, m') →
      ∃ numbers, connectAll p.inputFile p.outputFile k (stage :: rest) ends m =
        (.error (.openOutput path cause), m'.closeAll numbers) := by
  induction rest generalizing k stage ends m e with
  | nil =>
      obtain ⟨here, -, size⟩ := stage_of_drop shape
      have count' : pipes.length = k := by
        rw [count, Pipeline.pipeCount, ← size]
        rfl
      have last : stage.output = .outer p.outputFile := by
        apply coherent.output_getLast
        rw [List.getLast?_eq_getElem?, ← here]
        congr 1
        rw [Pipeline.size, List.length_nil] at size
        omega
      constructor
      · intro output m' opens
        rw [List.drop_eq_nil_of_le (Nat.le_of_eq count'), chain]
        simp only [connectAll, connected, last, connectOutput_outer opens,
          owned_left (Nat.le_of_eq count'), Machine.closeAll, List.foldl_nil]
      · intro path cause m' named failed
        refine ⟨e.owned ++ (left k k pipes).flatMap PipeEnds.owned, ?_⟩
        simp only [connectAll, connected, last, named, connectOutput_fails failed]
  | cons next rest ih =>
      obtain ⟨here, later, size⟩ := stage_of_drop shape
      obtain ⟨nextHere, -, -⟩ := stage_of_drop later
      rw [List.length_cons] at size
      have inner : k < pipes.length := by
        rw [count, Pipeline.pipeCount]
        omega
      have pipeHere := List.getElem?_eq_getElem inner
      have output := coherent.outputPiped k stage (by omega) here
      have input := coherent.inputPiped k next nextHere
      have nextConnected : connectInput p.inputFile (k + 1) next.input (left k (k + 1) pipes) m₁ =
          (.ok (.pipe pipes[k].1, left (k + 1) (k + 1) pipes), m₁) := by
        rw [input]
        exact connectInput_pipe pipeHere
      obtain ⟨opened, refused⟩ := ih later nextConnected
      constructor
      · intro output' m' opens
        rw [List.drop_eq_getElem_cons inner, chain, connectAll, connected]
        simp only [output, connectOutput_pipe pipeHere, opened output' m' opens]
      · intro path cause m' named failed
        obtain ⟨numbers, behind⟩ := refused path cause m' named failed
        refine ⟨numbers ++ (Connection.mk e (.pipe pipes[k].2)).owned, ?_⟩
        rw [connectAll, connected]
        simp only [output, connectOutput_pipe pipeHere, behind, Machine.disconnect,
          Machine.closeAll_append]

theorem left_zero_cons (pipe : Nat × Nat) (pipes : List (Nat × Nat)) :
    left 0 0 (pipe :: pipes) =
      { reader := some pipe.1, writer := some pipe.2 } :: left 0 0 pipes := by
  have whole : (fun i => leftAt 0 0 (i + 1)) = leftAt 0 0 := by
    funext i pipe
    simp [leftAt]
  rw [left, List.mapIdx_cons, whole]
  rfl

/-- Pipes are made until all are there; then no end of them is taken. -/
theorem allocate_eq_ok_iff {n : Nat} :
    allocate n m = (.ok ends, m') ↔
      ∃ pipes, MakesPipes m pipes m' ∧ pipes.length = n ∧ left 0 0 pipes = ends := by
  induction n generalizing m ends m' with
  | zero =>
      simp only [allocate, Prod.mk.injEq, Except.ok.injEq]
      constructor
      · rintro ⟨rfl, rfl⟩
        exact ⟨[], .none m, rfl, rfl⟩
      · rintro ⟨pipes, made, length, rfl⟩
        cases made with
        | none => exact ⟨rfl, rfl⟩
        | next => cases length
  | succ n ih =>
      rw [allocate]
      constructor
      · intro allocated
        split at allocated
        · cases allocated
        · next reader writer m₁ opened =>
            split at allocated
            · cases allocated
            · next rest m₂ others =>
                cases allocated
                obtain ⟨pipes, made, length, rfl⟩ := ih.mp others
                exact ⟨(reader, writer) :: pipes, .next opened made, congrArg (· + 1) length,
                  left_zero_cons ..⟩
      · rintro ⟨pipes, made, length, rfl⟩
        cases made with
        | none => cases length
        | next opened made =>
            have others := ih.mpr ⟨_, made, Nat.succ.inj length, rfl⟩
            simp only [opened, others, left_zero_cons]

/-- A pipe that cannot be made is the last one that is asked for. -/
theorem of_allocate_error {n : Nat} {cause : Errno} (failed : allocate n m = (.error cause, m')) :
    ∃ pipes m₁ m₂ numbers, MakesPipes m pipes m₁ ∧ pipes.length < n ∧
      m₁.openPipe = (.error cause, m₂) ∧ m' = m₂.closeAll numbers := by
  induction n generalizing m m' with
  | zero => cases failed
  | succ n ih =>
      rw [allocate] at failed
      split at failed
      · next refused =>
          cases failed
          exact ⟨[], m, m', [], .none m, Nat.succ_pos n, refused, rfl⟩
      · next reader writer m₁ opened =>
          split at failed
          · next cause m₂ others =>
              cases failed
              obtain ⟨pipes, m₃, m₄, numbers, made, fewer, refused, rfl⟩ := ih others
              refine ⟨(reader, writer) :: pipes, m₃, m₄, numbers ++ [reader, writer],
                .next opened made, Nat.succ_lt_succ fewer, refused, ?_⟩
              rw [Machine.closeAll_append]
          · cases failed

/-! ## The whole pipeline -/

theorem connectAll_first (coherent : p.Coherent ctx) (count : pipes.length = p.pipeCount)
    {input : Endpoint} (opens : OpensInput p.inputFile m input m₁) :
    (∀ output m', OpensOutput p.outputFile m₁ output m' →
      connectAll p.inputFile p.outputFile 0 p.stages (left 0 0 pipes) m =
        (.ok (chain input pipes output), m')) ∧
    ∀ path cause m', p.outputFile = some path → m₁.openOutput path = (.error cause, m') →
      ∃ numbers, connectAll p.inputFile p.outputFile 0 p.stages (left 0 0 pipes) m =
        (.error (.openOutput path cause), m'.closeAll numbers) := by
  obtain ⟨stage, rest, shape⟩ := List.exists_cons_of_ne_nil coherent.staged
  have headed : stage.input = .outer p.inputFile :=
    coherent.input_head (by rw [shape, List.head?_cons])
  have connected : connectInput p.inputFile 0 stage.input (left 0 0 pipes) m =
      (.ok (input, left 0 0 pipes), m₁) := by
    rw [headed]
    exact connectInput_outer opens
  have reached := connectAll_of_input coherent count (by rw [List.drop_zero, shape]) connected
  rw [List.drop_zero] at reached
  rw [shape]
  exact reached

theorem connectAll_refused (coherent : p.Coherent ctx) {path : String} {cause : FileFailure}
    (named : p.inputFile = some path) (failed : m.openInput path = (.error cause, m')) :
    connectAll p.inputFile p.outputFile 0 p.stages ends m =
      (.error (.openInput path cause), m'.closeAll (ends.flatMap PipeEnds.owned)) := by
  obtain ⟨stage, rest, shape⟩ := List.exists_cons_of_ne_nil coherent.staged
  have headed : stage.input = .outer p.inputFile :=
    coherent.input_head (by rw [shape, List.head?_cons])
  rw [shape, connectAll, headed, named, connectInput_fails failed]

/-- How wiring a coherent pipeline can come out: all calls are answered, or one is refused and
descriptors are closed. -/
inductive Course (p : Pipeline) (m : Machine) :
    Except ResourceError (List Connection) × Machine → Prop where
  | connected {m' : Machine} {input output : Endpoint} {pipes : List (Nat × Nat)}
      (opens : Opens p m input pipes output m') : Course p m (.ok (chain input pipes output), m')
  | unpiped {m₁ m₂ : Machine} {pipes : List (Nat × Nat)} {cause : Errno}
      (made : MakesPipes m pipes m₁) (fewer : pipes.length < p.pipeCount)
      (refused : m₁.openPipe = (.error cause, m₂)) (numbers : List Nat) :
      Course p m (.error (.pipe cause), m₂.closeAll numbers)
  | unread {m₁ m₂ : Machine} {pipes : List (Nat × Nat)} {path : String} {cause : FileFailure}
      (made : MakesPipes m pipes m₁) (count : pipes.length = p.pipeCount)
      (named : p.inputFile = some path) (refused : m₁.openInput path = (.error cause, m₂))
      (numbers : List Nat) : Course p m (.error (.openInput path cause), m₂.closeAll numbers)
  | unwritten {m₁ m₂ m₃ : Machine} {pipes : List (Nat × Nat)} {input : Endpoint} {path : String}
      {cause : FileFailure} (made : MakesPipes m pipes m₁) (count : pipes.length = p.pipeCount)
      (inputOpens : OpensInput p.inputFile m₁ input m₂) (named : p.outputFile = some path)
      (refused : m₂.openOutput path = (.error cause, m₃)) (numbers : List Nat) :
      Course p m (.error (.openOutput path cause), m₃.closeAll numbers)

theorem course_wire (coherent : p.Coherent ctx) (m : Machine) : Course p m (wire p m) := by
  unfold wire
  rcases allocated : allocate p.pipeCount m with ⟨cause | ends, m₁⟩
  · obtain ⟨pipes, _, _, numbers, made, fewer, refused, rfl⟩ := of_allocate_error allocated
    exact .unpiped made fewer refused numbers
  · obtain ⟨pipes, made, count, rfl⟩ := allocate_eq_ok_iff.mp allocated
    dsimp only
    rcases opensInput_or_fails p.inputFile m₁ with
      ⟨input, m₂, inputOpens⟩ | ⟨path, cause, m₂, named, refused⟩
    · obtain ⟨opened, unopened⟩ := connectAll_first coherent count inputOpens
      rcases opensOutput_or_fails p.outputFile m₂ with
        ⟨output, m', outputOpens⟩ | ⟨path, cause, m', named, refused⟩
      · rw [opened output m' outputOpens]
        exact .connected ⟨count, m₁, m₂, made, inputOpens, outputOpens⟩
      · obtain ⟨numbers, result⟩ := unopened path cause m' named refused
        rw [result]
        exact .unwritten made count inputOpens named refused numbers
    · rw [connectAll_refused coherent named refused]
      exact .unread made count named refused _

theorem wire_of_opens (coherent : p.Coherent ctx) {input output : Endpoint}
    (opens : Opens p m input pipes output m') : wire p m = (.ok (chain input pipes output), m') := by
  obtain ⟨m₁, m₂, made, inputOpens, outputOpens⟩ := opens.calls
  rw [wire, allocate_eq_ok_iff.mpr ⟨pipes, made, opens.count, rfl⟩]
  exact (connectAll_first coherent opens.count inputOpens).1 output m' outputOpens

/-- Wiring gives connections just when all calls are answered, and these are the chain of what the
calls gave. -/
theorem wire_eq_ok_iff (coherent : p.Coherent ctx) {connections : List Connection} :
    wire p m = (.ok connections, m') ↔
      ∃ input pipes output, Opens p m input pipes output m' ∧
        chain input pipes output = connections := by
  constructor
  · intro wired
    have course := course_wire coherent m
    rw [wired] at course
    cases course with
    | connected opens => exact ⟨_, _, _, opens, rfl⟩
  · rintro ⟨input, pipes, output, opens, rfl⟩
    exact wire_of_opens coherent opens

/-- An error of wiring is that of a call. -/
theorem call_of_wire_error (coherent : p.Coherent ctx) {cause : ResourceError}
    (failed : (wire p m).1 = .error cause) :
    (∃ e, cause = .pipe e) ∨ (∃ path e, cause = .openInput path e) ∨
      ∃ path e, cause = .openOutput path e := by
  have course := course_wire coherent m
  rcases outcome : wire p m with ⟨result, m'⟩
  rw [outcome] at course failed
  obtain rfl : result = .error cause := failed
  cases course with
  | unpiped => exact Or.inl ⟨_, rfl⟩
  | unread => exact Or.inr (Or.inl ⟨_, _, rfl⟩)
  | unwritten => exact Or.inr (Or.inr ⟨_, _, rfl⟩)

end Wiring

end PipeShell
