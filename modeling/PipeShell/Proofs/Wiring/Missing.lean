import PipeShell.Proofs.Wiring.OutputLast

/-!
# Wiring any pipeline

The channels of a pipeline can be chosen freely, so that neighbours disagree about the pipe between
them, an outer end asks for a pipe, or a file is wanted that is not named.  Wiring takes `steps`:
calls to the machine, and places where an end or a file is `missing` whatever the machine answers.
It fails at the first step that brings trouble and at no other (`failure?_wire`), because an end of
a pipe is still there when the stage beside it asks for it (`Left`).

So if all calls are answered, the first thing missing decides, and only the two outer ends can miss
a pipe (`wire_reports_first_missing`).
-/

set_option autoImplicit false

namespace PipeShell.Wiring

variable {m m' : Machine} {p : Pipeline} {c : Call} {channel : Channel} {e : Endpoint}
  {ends ends' : List PipeEnds} {n k readers writers : Nat}

/-! ## Steps -/

/-- What wiring comes to. -/
inductive Step where
  | call (c : Call)
  /-- An end or a file is not there. -/
  | missing (cause : ResourceError)
  deriving DecidableEq, Repr

def inputSteps (p : Pipeline) (stage : Nat) : Channel → List Step
  | .stdio => []
  | .pipe => if stage = 0 then [.missing (.missingPipe 0 (-1))] else []
  | .file =>
    match p.inputFile with
    | none => [.missing (.missingFile stage)]
    | some path => [.call (.input path)]

def outputSteps (p : Pipeline) (stage : Nat) : Channel → List Step
  | .stdio => []
  | .pipe => if stage + 1 = p.size then [.missing (.missingPipe stage stage)] else []
  | .file =>
    match p.outputFile with
    | none => [.missing (.missingFile stage)]
    | some path => [.call (.output path)]

/-- The steps for stages, the first of which has number `first`: input before output. -/
def stepsFrom (p : Pipeline) (first : Nat) : List Stage → List Step
  | [] => []
  | stage :: rest =>
    inputSteps p first stage.input ++
      (outputSteps p first stage.output ++ stepsFrom p (first + 1) rest)

/-- All pipes are made before the first stage. -/
def steps (p : Pipeline) : List Step :=
  List.replicate p.pipeCount (.call .pipe) ++ stepsFrom p 0 p.stages

/-- What is missing, in the order in which wiring comes to it. -/
def missing (steps : List Step) : List ResourceError :=
  steps.filterMap fun
    | .missing cause => some cause
    | .call _ => none

/-- The calls up to the first thing that is missing. -/
def asked : List Step → List Call
  | .call c :: rest => c :: asked rest
  | _ => []

/-- The error for a call that the machine refuses. -/
def Call.refusal? (m : Machine) : Call → Option ResourceError
  | pipe =>
    match m.openPipe.1 with
    | .error cause => some (.pipe cause)
    | .ok _ => none
  | input path =>
    match (m.openInput path).1 with
    | .error cause => some (.openInput path cause)
    | .ok _ => none
  | output path =>
    match (m.openOutput path).1 with
    | .error cause => some (.openOutput path cause)
    | .ok _ => none

/-- The first trouble on the way: a call is refused, or something is missing. -/
def trouble? (m : Machine) : List Step → Option ResourceError
  | [] => none
  | .missing cause :: _ => some cause
  | .call c :: rest =>
    match c.refusal? m with
    | some cause => some cause
    | none => trouble? (c.make m).2 rest

def failure? {ε α : Type} : Except ε α → Option ε
  | .error cause => some cause
  | .ok _ => none

/-! ## Ends that are left -/

/-- Of `n` pipes, all reading ends from one place on and all writing ends from another place on can
still be taken. -/
structure Left (n readers writers : Nat) (ends : List PipeEnds) : Prop where
  length : ends.length = n
  reader : ∀ i pair, ends[i]? = some pair → readers ≤ i → pair.reader.isSome = true
  writer : ∀ i pair, ends[i]? = some pair → writers ≤ i → pair.writer.isSome = true

theorem Left.mono (left : Left n readers writers ends) {readers' writers' : Nat}
    (fewer : readers ≤ readers') (fewer' : writers ≤ writers') : Left n readers' writers' ends where
  length := left.length
  reader i pair here from_ := left.reader i pair here (Nat.le_trans fewer from_)
  writer i pair here from_ := left.writer i pair here (Nat.le_trans fewer' from_)

theorem Left.set (left : Left n readers writers ends) {place : Nat} {pair : PipeEnds}
    (reader : readers ≤ place → pair.reader.isSome = true)
    (writer : writers ≤ place → pair.writer.isSome = true) :
    Left n readers writers (ends.set place pair) where
  length := by rw [List.length_set, left.length]
  reader i other here from_ := by
    rw [List.getElem?_set] at here
    split at here
    · next same =>
        split at here
        · cases here
          exact reader (same ▸ from_)
        · cases here
    · exact left.reader i other here from_
  writer i other here from_ := by
    rw [List.getElem?_set] at here
    split at here
    · next same =>
        split at here
        · cases here
          exact writer (same ▸ from_)
        · cases here
    · exact left.writer i other here from_

/-- The reading end behind a pipe that no stage has come to yet is there. -/
theorem Left.takeReader (left : Left n k writers ends) (inner : k < n) :
    ∃ number ends', takeReader (k + 1) ends = .ok (number, ends') ∧
      Left n (k + 1) writers ends' := by
  obtain ⟨⟨reader, writer⟩, here⟩ : ∃ pair, ends[k]? = some pair :=
    ⟨_, List.getElem?_eq_getElem (left.length ▸ inner)⟩
  obtain ⟨number, rfl⟩ := Option.isSome_iff_exists.mp (left.reader k _ here (Nat.le_refl k))
  refine ⟨number, ends.set k ⟨none, writer⟩, by simp only [Wiring.takeReader, here], ?_⟩
  have kept := left.writer k _ here
  refine (left.mono (Nat.le_succ k) (Nat.le_refl writers)).set (fun above => ?_) kept
  exact absurd above (Nat.not_succ_le_self k)

theorem Left.takeWriter (left : Left n readers k ends) (inner : k < n) :
    ∃ number ends', takeWriter k ends = .ok (number, ends') ∧ Left n readers (k + 1) ends' := by
  obtain ⟨⟨reader, writer⟩, here⟩ : ∃ pair, ends[k]? = some pair :=
    ⟨_, List.getElem?_eq_getElem (left.length ▸ inner)⟩
  obtain ⟨number, rfl⟩ := Option.isSome_iff_exists.mp (left.writer k _ here (Nat.le_refl k))
  refine ⟨number, ends.set k ⟨reader, none⟩, by simp only [Wiring.takeWriter, here], ?_⟩
  have kept := left.reader k _ here
  refine (left.mono (Nat.le_refl readers) (Nat.le_succ k)).set kept fun above => ?_
  exact absurd above (Nat.not_succ_le_self k)

theorem Left.takeWriter_last (left : Left n readers writers ends) :
    Wiring.takeWriter n ends = .error (.missingPipe n n) := by
  have outside : ends[n]? = none := List.getElem?_eq_none (left.length ▸ Nat.le_refl _)
  simp only [Wiring.takeWriter, outside]

theorem left_of_allocate {n : Nat} (allocated : allocate n m = (.ok ends, m')) :
    Left n 0 0 ends := by
  obtain ⟨pipes, -, rfl, rfl⟩ := allocate_eq_ok_iff.mp allocated
  refine ⟨by rw [left, List.length_mapIdx], ?_, ?_⟩
  all_goals
    intro i pair here _
    rw [left, List.getElem?_mapIdx, Option.map_eq_some_iff] at here
    obtain ⟨pipe, -, rfl⟩ := here
    simp [leftAt]

/-! ## One side of a stage -/

/-- Connecting one side takes its steps: it fails with what they bring, or goes on behind them. -/
theorem trouble?_inputSteps (m : Machine) (channel : Channel)
    (left : Left p.pipeCount (k - 1) k ends) (inner : k < p.size)
    (rest : List Step) :
    (∃ cause m', connectInput p.inputFile k channel ends m = (.error cause, m') ∧
      trouble? m (inputSteps p k channel ++ rest) = some cause) ∨
    ∃ e ends' m', connectInput p.inputFile k channel ends m = (.ok (e, ends'), m') ∧
      Left p.pipeCount k k ends' ∧
      trouble? m (inputSteps p k channel ++ rest) = trouble? m' rest := by
  have onward := left.mono (Nat.sub_le k 1) (Nat.le_refl k)
  cases channel with
  | stdio => exact Or.inr ⟨_, _, _, rfl, onward, rfl⟩
  | file =>
      simp only [connectInput, inputSteps]
      cases p.inputFile with
      | none => exact Or.inl ⟨_, _, rfl, rfl⟩
      | some path =>
          dsimp only
          rcases outcome : m.openInput path with ⟨cause | number, m'⟩
          · refine Or.inl ⟨_, _, rfl, ?_⟩
            simp [trouble?, Call.refusal?, outcome]
          · refine Or.inr ⟨_, _, _, rfl, onward, ?_⟩
            simp [trouble?, Call.refusal?, Call.make, outcome]
  | pipe =>
      rw [connectInput, inputSteps]
      cases k with
      | zero => exact Or.inl ⟨_, _, rfl, rfl⟩
      | succ k =>
          have between : k < p.pipeCount := by
            rw [Pipeline.pipeCount]
            omega
          rw [Nat.add_sub_cancel] at left
          obtain ⟨number, ends', took, left'⟩ := left.takeReader between
          rw [took]
          exact Or.inr ⟨_, _, _, rfl, left', rfl⟩

theorem trouble?_outputSteps (m : Machine) (channel : Channel)
    (left : Left p.pipeCount k k ends) (inner : k < p.size)
    (rest : List Step) :
    (∃ cause m', connectOutput p.outputFile k channel ends m = (.error cause, m') ∧
      trouble? m (outputSteps p k channel ++ rest) = some cause) ∨
    ∃ e ends' m', connectOutput p.outputFile k channel ends m = (.ok (e, ends'), m') ∧
      Left p.pipeCount k (k + 1) ends' ∧
      trouble? m (outputSteps p k channel ++ rest) = trouble? m' rest := by
  have onward := left.mono (Nat.le_refl k) (Nat.le_succ k)
  cases channel with
  | stdio => exact Or.inr ⟨_, _, _, rfl, onward, rfl⟩
  | file =>
      simp only [connectOutput, outputSteps]
      cases p.outputFile with
      | none => exact Or.inl ⟨_, _, rfl, rfl⟩
      | some path =>
          dsimp only
          rcases outcome : m.openOutput path with ⟨cause | number, m'⟩
          · refine Or.inl ⟨_, _, rfl, ?_⟩
            simp [trouble?, Call.refusal?, outcome]
          · refine Or.inr ⟨_, _, _, rfl, onward, ?_⟩
            simp [trouble?, Call.refusal?, Call.make, outcome]
  | pipe =>
      rw [connectOutput, outputSteps]
      by_cases last : k + 1 = p.size
      · have outer : k = p.pipeCount := by
          rw [Pipeline.pipeCount]
          omega
        subst outer
        rw [left.takeWriter_last, if_pos last]
        exact Or.inl ⟨_, _, rfl, rfl⟩
      · have between : k < p.pipeCount := by
          rw [Pipeline.pipeCount]
          omega
        obtain ⟨number, ends', took, left'⟩ := left.takeWriter between
        rw [took, if_neg last]
        exact Or.inr ⟨_, _, _, rfl, left', rfl⟩

/-! ## All stages -/

theorem failure?_connectAll {stages : List Stage} (whole : k + stages.length = p.size)
    (left : Left p.pipeCount (k - 1) k ends) :
    failure? (connectAll p.inputFile p.outputFile k stages ends m).1 =
      trouble? m (stepsFrom p k stages) := by
  induction stages generalizing k ends m with
  | nil => rfl
  | cons stage rest ih =>
      rw [List.length_cons] at whole
      have inner : k < p.size := by omega
      rw [connectAll, stepsFrom]
      rcases trouble?_inputSteps m stage.input left inner
          (outputSteps p k stage.output ++ stepsFrom p (k + 1) rest) with
        ⟨cause, m₁, failed, trouble⟩ | ⟨input, ends₁, m₁, connected, left₁, trouble⟩
      · rw [failed, trouble]
        rfl
      · rw [connected, trouble]
        dsimp only
        rcases trouble?_outputSteps m₁ stage.output left₁ inner
            (stepsFrom p (k + 1) rest) with
          ⟨cause, m₂, failed, trouble'⟩ | ⟨output, ends₂, m₂, connected', left₂, trouble'⟩
        · rw [failed, trouble']
          rfl
        · have behind := ih (k := k + 1) (m := m₂) (by omega) left₂
          rw [connected', trouble', ← behind]
          dsimp only
          rcases connectAll p.inputFile p.outputFile (k + 1) rest ends₂ m₂ with ⟨_ | _, _⟩ <;> rfl

theorem trouble?_allocate (n : Nat) (m : Machine) (rest : List Step) :
    (∃ cause m', allocate n m = (.error cause, m') ∧
      trouble? m (List.replicate n (.call .pipe) ++ rest) = some (.pipe cause)) ∨
    ∃ ends m', allocate n m = (.ok ends, m') ∧
      trouble? m (List.replicate n (.call .pipe) ++ rest) = trouble? m' rest := by
  induction n generalizing m with
  | zero => exact Or.inr ⟨_, _, rfl, rfl⟩
  | succ n ih =>
      rw [allocate, List.replicate_succ, List.cons_append]
      rcases outcome : m.openPipe with ⟨cause | ⟨reader, writer⟩, m₁⟩
      · refine Or.inl ⟨_, _, rfl, ?_⟩
        simp [trouble?, Call.refusal?, outcome]
      · have passed : trouble? m (.call .pipe :: (List.replicate n (.call .pipe) ++ rest)) =
            trouble? m₁ (List.replicate n (.call .pipe) ++ rest) := by
          simp [trouble?, Call.refusal?, Call.make, outcome]
        rw [passed]
        dsimp only
        rcases ih m₁ with ⟨cause, m₂, failed, trouble⟩ | ⟨ends, m₂, made, trouble⟩
        · rw [failed]
          exact Or.inl ⟨_, _, rfl, trouble⟩
        · rw [made]
          exact Or.inr ⟨_, _, rfl, trouble⟩

/-- Wiring fails with the first trouble on the way, and if there is none it succeeds. -/
theorem failure?_wire (p : Pipeline) (m : Machine) :
    failure? (wire p m).1 = trouble? m (steps p) := by
  rw [wire, steps]
  rcases trouble?_allocate p.pipeCount m (stepsFrom p 0 p.stages) with
    ⟨cause, m₁, failed, trouble⟩ | ⟨ends, m₁, made, trouble⟩
  · rw [failed, trouble]
    rfl
  · rw [made, trouble]
    exact failure?_connectAll (Nat.zero_add _) (left_of_allocate made)

/-! ## Calls that are answered -/

/-- The error is that of a call to the machine. -/
def OfCall : ResourceError → Prop
  | .pipe _ | .openInput .. | .openOutput .. => True
  | _ => False

theorem ofCall_of_refusal? {cause : ResourceError} (refused : c.refusal? m = some cause) :
    OfCall cause := by
  cases c
  all_goals
    rw [Call.refusal?] at refused
    split at refused
    · cases refused
      trivial
    · cases refused

theorem refusal?_eq_none_iff : c.refusal? m = none ↔ (c.make m).1 = true := by
  cases c
  all_goals
    simp only [Call.refusal?, Call.make]
    split <;> simp_all [Except.toBool]

theorem missing_append (first second : List Step) :
    missing (first ++ second) = missing first ++ missing second := List.filterMap_append

/-- If the calls before it are answered, what is missing first is the trouble. -/
theorem trouble?_of_answers {list : List Step} (answers : Answers m (asked list) m') :
    trouble? m list = (missing list).head? := by
  induction list generalizing m with
  | nil => rfl
  | cons step rest ih =>
      cases step with
      | missing cause => rfl
      | call c =>
          cases answers with
          | next answered behind =>
              have accepted : c.refusal? m = none := refusal?_eq_none_iff.mpr (by rw [answered])
              rw [trouble?, accepted]
              simp only [answered]
              exact ih behind

theorem trouble?_of_refused {list : List Step} (refused : ¬ ∃ m', Answers m (asked list) m') :
    ∃ cause, trouble? m list = some cause ∧ OfCall cause := by
  induction list generalizing m with
  | nil => exact absurd ⟨m, .none m⟩ refused
  | cons step rest ih =>
      cases step with
      | missing cause => exact absurd ⟨m, .none m⟩ refused
      | call c =>
          cases trouble : c.refusal? m with
          | some cause => exact ⟨cause, by rw [trouble?, trouble], ofCall_of_refusal? trouble⟩
          | none =>
              have answered : c.make m = (true, (c.make m).2) :=
                Prod.ext (refusal?_eq_none_iff.mp trouble) rfl
              rw [trouble?, trouble]
              exact ih fun ⟨m', behind⟩ => refused ⟨m', .next answered behind⟩

/-! ## What a pipeline lacks -/

/-- What is not there for a stage, by the channels and the names of files alone. -/
inductive Lacks (p : Pipeline) : ResourceError → Prop where
  | before {stage : Stage} (first : p.stages.head? = some stage) (piped : stage.input = .pipe) :
      Lacks p (.missingPipe 0 (-1))
  | behind {stage : Stage} (last : p.stages.getLast? = some stage) (piped : stage.output = .pipe) :
      Lacks p (.missingPipe (p.size - 1) (p.size - 1 : Nat))
  | input {i : Nat} {stage : Stage} (here : p.stages[i]? = some stage)
      (filed : stage.input = .file) (unnamed : p.inputFile = none) : Lacks p (.missingFile i)
  | output {i : Nat} {stage : Stage} (here : p.stages[i]? = some stage)
      (filed : stage.output = .file) (unnamed : p.outputFile = none) : Lacks p (.missingFile i)

theorem Lacks.not_ofCall {cause : ResourceError} (lacks : Lacks p cause) : ¬ OfCall cause := by
  cases lacks <;> exact id

theorem mem_missing_inputSteps_iff {cause : ResourceError} :
    cause ∈ missing (inputSteps p k channel) ↔
      (channel = .pipe ∧ k = 0 ∧ cause = .missingPipe 0 (-1)) ∨
        (channel = .file ∧ p.inputFile = none ∧ cause = .missingFile k) := by
  cases channel with
  | stdio => simp [inputSteps, missing]
  | pipe => by_cases first : k = 0 <;> simp [inputSteps, missing, first]
  | file => cases named : p.inputFile <;> simp [inputSteps, missing, named]

theorem mem_missing_outputSteps_iff {cause : ResourceError} :
    cause ∈ missing (outputSteps p k channel) ↔
      (channel = .pipe ∧ k + 1 = p.size ∧ cause = .missingPipe k k) ∨
        (channel = .file ∧ p.outputFile = none ∧ cause = .missingFile k) := by
  cases channel with
  | stdio => simp [outputSteps, missing]
  | pipe => by_cases last : k + 1 = p.size <;> simp [outputSteps, missing, last]
  | file => cases named : p.outputFile <;> simp [outputSteps, missing, named]

theorem mem_missing_stepsFrom_iff {stages : List Stage} {cause : ResourceError} :
    cause ∈ missing (stepsFrom p k stages) ↔
      ∃ i stage, stages[i]? = some stage ∧ (cause ∈ missing (inputSteps p (k + i) stage.input) ∨
        cause ∈ missing (outputSteps p (k + i) stage.output)) := by
  induction stages generalizing k with
  | nil => simp [stepsFrom, missing]
  | cons stage rest ih =>
      rw [stepsFrom, missing_append, missing_append, List.mem_append, List.mem_append, ih,
        ← or_assoc]
      constructor
      · rintro (here | ⟨i, other, there, lacking⟩)
        · exact ⟨0, stage, rfl, here⟩
        · exact ⟨i + 1, other, there, by rwa [Nat.add_right_comm] at lacking⟩
      · rintro ⟨_ | i, other, there, lacking⟩
        · cases there
          exact Or.inl lacking
        · exact Or.inr ⟨i, other, there, by rwa [Nat.add_right_comm]⟩

theorem missing_replicate_pipe (n : Nat) : missing (List.replicate n (.call .pipe)) = [] := by
  rw [missing, List.filterMap_eq_nil_iff]
  intro step member
  rw [List.eq_of_mem_replicate member]

theorem mem_missing_iff {cause : ResourceError} : cause ∈ missing (steps p) ↔ Lacks p cause := by
  rw [steps, missing_append, missing_replicate_pipe, List.nil_append, mem_missing_stepsFrom_iff]
  constructor
  · rintro ⟨i, stage, here, lacking | lacking⟩
    · rw [Nat.zero_add, mem_missing_inputSteps_iff] at lacking
      rcases lacking with ⟨piped, rfl, rfl⟩ | ⟨filed, unnamed, rfl⟩
      · exact .before (by rw [List.head?_eq_getElem?]; exact here) piped
      · exact .input here filed unnamed
    · rw [Nat.zero_add, mem_missing_outputSteps_iff] at lacking
      rcases lacking with ⟨piped, last, rfl⟩ | ⟨filed, unnamed, rfl⟩
      · obtain rfl : i = p.size - 1 := by omega
        exact .behind (by rw [List.getLast?_eq_getElem?]; exact here) piped
      · exact .output here filed unnamed
  · intro lacks
    cases lacks with
    | @before stage first piped =>
        rw [List.head?_eq_getElem?] at first
        exact ⟨0, stage, first, Or.inl (mem_missing_inputSteps_iff.mpr (Or.inl ⟨piped, rfl, rfl⟩))⟩
    | @behind stage last piped =>
        rw [List.getLast?_eq_getElem?] at last
        have inner := (List.getElem?_eq_some_iff.mp last).1
        have size : 0 + (p.size - 1) + 1 = p.size := by
          rw [Pipeline.size]
          omega
        refine ⟨p.size - 1, stage, last, Or.inr (mem_missing_outputSteps_iff.mpr (Or.inl ?_))⟩
        exact ⟨piped, size, by rw [Nat.zero_add]⟩
    | @input i stage here filed unnamed =>
        refine ⟨i, stage, here, Or.inl (mem_missing_inputSteps_iff.mpr (Or.inr ?_))⟩
        exact ⟨filed, unnamed, by rw [Nat.zero_add]⟩
    | @output i stage here filed unnamed =>
        refine ⟨i, stage, here, Or.inr (mem_missing_outputSteps_iff.mpr (Or.inr ?_))⟩
        exact ⟨filed, unnamed, by rw [Nat.zero_add]⟩

/-- The outer ends ask for no pipe, and every file that is wanted is named. -/
structure Complete (p : Pipeline) : Prop where
  input : ∀ stage, p.stages.head? = some stage → stage.input ≠ .pipe
  output : ∀ stage, p.stages.getLast? = some stage → stage.output ≠ .pipe
  inputNamed : ∀ stage ∈ p.stages, stage.input = .file → p.inputFile ≠ none
  outputNamed : ∀ stage ∈ p.stages, stage.output = .file → p.outputFile ≠ none

/-- A pipeline that lacks nothing is complete, whatever neighbours make of the pipes between
them. -/
theorem missing_eq_nil_iff : missing (steps p) = [] ↔ Complete p := by
  simp only [List.eq_nil_iff_forall_not_mem, mem_missing_iff]
  constructor
  · intro nothing
    refine ⟨?_, ?_, ?_, ?_⟩
    · exact fun stage first piped => nothing _ (.before first piped)
    · exact fun stage last piped => nothing _ (.behind last piped)
    · intro stage member filed unnamed
      obtain ⟨i, here⟩ := List.getElem?_of_mem member
      exact nothing _ (.input here filed unnamed)
    · intro stage member filed unnamed
      obtain ⟨i, here⟩ := List.getElem?_of_mem member
      exact nothing _ (.output here filed unnamed)
  · intro complete cause lacks
    cases lacks with
    | before first piped => exact complete.input _ first piped
    | behind last piped => exact complete.output _ last piped
    | input here filed unnamed =>
        exact complete.inputNamed _ (List.mem_of_getElem? here) filed unnamed
    | output here filed unnamed =>
        exact complete.outputNamed _ (List.mem_of_getElem? here) filed unnamed

/-! ## Ends that are asked for -/

/-- The ends that stages ask for, by side and by the place of the pipe, as far as wiring comes. -/
def requests (inputFile outputFile : Option String) (first : Nat) :
    List Stage → List PipeEnds → Machine → List (Access × Int)
  | [], _, _ => []
  | stage :: rest, ends, m =>
    (if stage.input = .pipe then [(.reading, (first : Int) - 1)] else []) ++
      match connectInput inputFile first stage.input ends m with
      | (.error _, _) => []
      | (.ok (_, ends), m) =>
        (if stage.output = .pipe then [(.writing, (first : Int))] else []) ++
          match connectOutput outputFile first stage.output ends m with
          | (.error _, _) => []
          | (.ok (_, ends), m) => requests inputFile outputFile (first + 1) rest ends m

/-- The ends that wiring a pipeline asks for. -/
def requested (p : Pipeline) (m : Machine) : List (Access × Int) :=
  match allocate p.pipeCount m with
  | (.error _, _) => []
  | (.ok ends, m) => requests p.inputFile p.outputFile 0 p.stages ends m

/-- The order in which stages come to ends: a stage to the pipe before it, then to the one
behind. -/
def rank : Access × Int → Int
  | (.reading, place) => 2 * place + 2
  | (.writing, place) => 2 * place + 1

structure InOrder (start : Int) (requests : List (Access × Int)) : Prop where
  ascending : requests.Pairwise fun request next => rank request < rank next
  above : ∀ request ∈ requests, start ≤ rank request

theorem InOrder.nil (start : Int) : InOrder start [] := ⟨.nil, by simp⟩

theorem InOrder.ask {start : Int} {list : List (Access × Int)} {request : Access × Int}
    (next : Int) (rest : InOrder next list) (asks : Prop) [Decidable asks]
    (here : rank request = start) (before : start < next) : InOrder start ((if asks then [request] else []) ++ list) := by
  have later : ∀ other ∈ list, rank request < rank other := by
    intro other member
    have := rest.above other member
    omega
  split
  · refine ⟨List.pairwise_cons.mpr ⟨later, rest.ascending⟩, ?_⟩
    rw [List.singleton_append, List.forall_mem_cons]
    exact ⟨by omega, fun other member => by have := later other member; omega⟩
  · exact ⟨rest.ascending, fun other member => by have := rest.above other member; omega⟩

theorem InOrder.nodup {start : Int} {list : List (Access × Int)} (inOrder : InOrder start list) :
    list.Nodup := by
  refine inOrder.ascending.imp ?_
  rintro request _ before rfl
  exact absurd before (Int.lt_irrefl _)

theorem inOrder_requests (inputFile outputFile : Option String) (stages : List Stage) :
    InOrder (2 * k) (requests inputFile outputFile k stages ends m) := by
  induction stages generalizing k ends m with
  | nil => exact .nil _
  | cons stage rest ih =>
      rw [requests]
      refine InOrder.ask (2 * k + 1) ?_ _ (by simp only [rank]; omega) (by omega)
      split
      · exact .nil _
      · next ends₁ m₁ _ =>
          refine InOrder.ask (2 * (k + 1 : Nat)) ?_ _ rfl (by omega)
          split
          · exact .nil _
          · exact ih

theorem nodup_requested (p : Pipeline) (m : Machine) : (requested p m).Nodup := by
  rw [requested]
  split
  · exact List.nodup_nil
  · exact (inOrder_requests ..).nodup

/-! ## The first thing missing -/

theorem error_iff_trouble? {cause : ResourceError} :
    (wire p m).1 = .error cause ↔ trouble? m (steps p) = some cause := by
  rw [← failure?_wire]
  rcases wire p m with ⟨other | connections, m'⟩ <;> simp [failure?]

theorem ok_iff_trouble? :
    (∃ connections, (wire p m).1 = .ok connections) ↔ trouble? m (steps p) = none := by
  rw [← failure?_wire]
  rcases wire p m with ⟨other | connections, m'⟩ <;> simp [failure?]

/-- Whatever channels the stages have and whatever the machine answers, wiring fails only for a call
that was refused or for something that the pipeline lacks: a pipe before the first stage or behind
the last one, or a file without a name.  It asks for no end twice.  If all calls up to the first
thing missing are answered, which is to say that no call is the reason of a failure, wiring succeeds
just when the pipeline is complete, and otherwise the first thing missing is what it fails with. -/
theorem wire_reports_first_missing (p : Pipeline) (m : Machine) :
    ((∃ m', Answers m (asked (steps p)) m') ↔
      ∀ cause, (wire p m).1 = .error cause → ¬ OfCall cause) ∧
    (∀ m', Answers m (asked (steps p)) m' →
      ((∃ connections, (wire p m).1 = .ok connections) ↔ Complete p) ∧
      ∀ cause, (wire p m).1 = .error cause ↔ (missing (steps p)).head? = some cause) ∧
    (∀ cause, (wire p m).1 = .error cause → OfCall cause ∨ Lacks p cause) ∧
    (requested p m).Nodup := by
  have decided : ∀ m', Answers m (asked (steps p)) m' →
      ∀ cause, (wire p m).1 = .error cause ↔ (missing (steps p)).head? = some cause := by
    intro m' answers cause
    rw [error_iff_trouble?, trouble?_of_answers answers]
  have lacking : ∀ m', Answers m (asked (steps p)) m' →
      ∀ cause, (wire p m).1 = .error cause → Lacks p cause := by
    intro m' answers cause failed
    exact mem_missing_iff.mp (List.mem_of_head? ((decided m' answers cause).mp failed))
  refine ⟨⟨?_, ?_⟩, fun m' answers => ⟨?_, decided m' answers⟩, ?_, nodup_requested p m⟩
  · rintro ⟨m', answers⟩ cause failed
    exact (lacking m' answers cause failed).not_ofCall
  · intro own
    by_contra refused
    obtain ⟨cause, trouble, ofCall⟩ := trouble?_of_refused refused
    exact own cause (error_iff_trouble?.mpr trouble) ofCall
  · rw [ok_iff_trouble?, trouble?_of_answers answers, List.head?_eq_none_iff, missing_eq_nil_iff]
  · intro cause failed
    by_cases answered : ∃ m', Answers m (asked (steps p)) m'
    · obtain ⟨m', answers⟩ := answered
      exact Or.inr (lacking m' answers cause failed)
    · obtain ⟨other, trouble, ofCall⟩ := trouble?_of_refused answered
      rw [error_iff_trouble?, trouble] at failed
      cases failed
      exact Or.inl ofCall

/-- The first stage does not write what the second one would read, which does not matter; that the
second one wants a file without a name is found before the last one's pipe. -/
example :
    let stage (input output : Channel) : Stage :=
      { name := "cat", argv := ["cat"], isBuiltin := false, input, output }
    let p : Pipeline :=
      { stages := [stage .stdio .stdio, stage .pipe .file, stage .stdio .pipe]
        inputFile := some "data", outputFile := none }
    (wire p bareMachine).1 = .error (.missingFile 1) := by
  decide

end PipeShell.Wiring
