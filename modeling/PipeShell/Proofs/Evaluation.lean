import PipeShell.Job.Launch
import PipeShell.Proofs.Builtin
import PipeShell.Proofs.Compile.Coherence
import PipeShell.Proofs.Supervisor.Law
import PipeShell.Proofs.Supervisor.Steps
import PipeShell.Rehearsal

/-!
# Evaluation without a supervisor

`reference` says what evaluating a line comes to without anything that is halfway through: the line
is compiled and the pipeline wired, the stages are launched from left to right up to the first
failure, and then every process is waited for.  `eval` does just this with any launcher that runs
builtins as builtins (`eval_meets_reference`).  So only the launches decide what a line results in,
and the only line that makes the shell exit is one that stands for the builtin `bye` alone.
-/

set_option autoImplicit false

namespace PipeShell

variable {σ : Type}

open Launcher (Event launches processes waits)
open Supervisor (await)

/-! ## The reference -/

/-- What became of launching several stages. -/
structure Launches (σ : Type) where
  failure : Option ShellError
  launched : List Launched
  world : Shell × σ

/-- Launches stages with their connections from left to right, up to the first failure.  Then the
connections of the stages behind are closed. -/
def launchEach (l : Launcher σ) : List (Stage × Connection) → Shell × σ → Launches σ
  | [], world => { failure := none, launched := [], world }
  | (stage, c) :: rest, world =>
    match l.launch stage c world with
    | (.error cause, (sh, own)) =>
      { failure := some cause, launched := []
        world := (sh.disconnectAll (rest.map Prod.snd), own) }
    | (.ok launched, world) =>
      { launchEach l rest world with launched := launched :: (launchEach l rest world).launched }

section Launching

variable {l : Launcher σ} {stage : Stage} {c : Connection} {world after : Shell × σ}

theorem launchEach_of_error {cause : ShellError}
    (outcome : l.launch stage c world = (.error cause, after)) (rest : List (Stage × Connection)) :
    launchEach l ((stage, c) :: rest) world =
      { failure := some cause, launched := []
        world := (after.1.disconnectAll (rest.map Prod.snd), after.2) } := by
  rw [launchEach, outcome]

theorem launchEach_of_ok {launched : Launched}
    (outcome : l.launch stage c world = (.ok launched, after)) (rest : List (Stage × Connection)) :
    launchEach l ((stage, c) :: rest) world =
      { launchEach l rest after with
        launched := launched :: (launchEach l rest after).launched } := by
  rw [launchEach, outcome]

end Launching

/-- The pipeline is the builtin `bye` and nothing else. -/
def Pipeline.isBye (p : Pipeline) : Bool :=
  match p.stages with
  | [stage] => stage.isBuiltin && stage.name = Builtin.bye.name
  | _ => false

/-- What a pipeline tells the shell, if all of it is launched. -/
def Pipeline.flow (p : Pipeline) : Flow :=
  if p.isBye then .exit else .proceed

/-- Evaluates a pipeline that has its connections. -/
def carryOut (l : Launcher σ) (p : Pipeline) (connections : List Connection) (world : Shell × σ) :
    Except ShellError Flow × (Shell × σ) :=
  let launches := launchEach l (p.stages.zip connections) world
  (launches.failure.elim (.ok p.flow) .error,
    (launches.launched.flatMap Launched.handles).foldl (await l) launches.world)

/-- What evaluating a line comes to. -/
def reference (l : Launcher σ) (line : String) (world : Shell × σ) :
    Except ShellError Flow × (Shell × σ) :=
  match compile world.1.context line with
  | .error cause => (.error cause, world)
  | .ok p =>
    match wire p world.1.machine with
    | (.error cause, machine) => (.error (.resource cause), ({ world.1 with machine }, world.2))
    | (.ok connections, machine) => carryOut l p connections ({ world.1 with machine }, world.2)

section Evaluating

variable {l : Launcher σ} {line : String} {world : Shell × σ} {p : Pipeline} {machine : Machine}

theorem reference_of_uncompiled {cause : ShellError}
    (failed : compile world.1.context line = .error cause) :
    reference l line world = (.error cause, world) := by
  rw [reference, failed]

theorem reference_of_unwired {cause : ResourceError}
    (compiled : compile world.1.context line = .ok p)
    (failed : wire p world.1.machine = (.error cause, machine)) :
    reference l line world =
      (.error (.resource cause), ({ world.1 with machine }, world.2)) := by
  rw [reference, compiled]
  simp only [failed]

theorem reference_of_wired {connections : List Connection}
    (compiled : compile world.1.context line = .ok p)
    (wired : wire p world.1.machine = (.ok connections, machine)) :
    reference l line world =
      carryOut l p connections ({ world.1 with machine }, world.2) := by
  rw [reference, compiled]
  simp only [wired]

end Evaluating

/-! ## Driving a supervisor -/

/-- What the shell is told in the end, if it was told something before. -/
def Flow.after (told before : Flow) : Flow :=
  match told with
  | .exit => .exit
  | .proceed => before

/-- What the shell is told by several launches. -/
def flowOf (launched : List Launched) (before : Flow) : Flow :=
  launched.foldl (fun before launched => launched.flow.after before) before

namespace Supervisor

variable {l : Launcher σ} {s t : Supervisor σ} {flow told : Flow}

theorem execAll_of_not_hasNext (spent : s.hasNext = false) :
    execAll l flow s = (.ok flow, s) := by
  rw [execAll, dif_neg (by rw [spent]; exact Bool.false_ne_true)]

theorem execAll_of_error (left : s.hasNext = true) {cause : ShellError}
    (failed : execNext l s = (.error cause, t)) : execAll l flow s = (.error cause, t) := by
  rw [execAll, dif_pos left]
  split
  · next outcome =>
      rw [failed] at outcome
      cases outcome
      rfl
  · next outcome =>
      rw [failed] at outcome
      cases outcome
  · next outcome =>
      rw [failed] at outcome
      cases outcome

theorem execAll_of_ok (left : s.hasNext = true) (went : execNext l s = (.ok told, t)) :
    execAll l flow s = execAll l (told.after flow) t := by
  rw [execAll, dif_pos left]
  split
  · next outcome =>
      rw [went] at outcome
      cases outcome
  · next outcome =>
      rw [went] at outcome
      cases outcome
      rfl
  · next outcome =>
      rw [went] at outcome
      cases outcome
      rfl

theorem execAll_congr (left : s.hasNext = true) (left' : t.hasNext = true)
    (same : execNext l s = execNext l t) : execAll l flow s = execAll l flow t := by
  rcases outcome : execNext l t with ⟨cause | told, t'⟩
  · rw [execAll_of_error left (same.trans outcome), execAll_of_error left' outcome]
  · rw [execAll_of_ok left (same.trans outcome), execAll_of_ok left' outcome]

/-- The requests came to what launching stages one after the other came to. -/
structure CameTo (s : Supervisor σ) (flow : Flow) (launches : Launches σ)
    (outcome : Except ShellError Flow × Supervisor σ) : Prop where
  result : outcome.1 = launches.failure.elim (.ok (flowOf launches.launched flow)) .error
  launched : outcome.2.launched = s.launched ++ launches.launched.flatMap Launched.handles
  world : outcome.2.halt.world = launches.world

/-- Once every stage has its connection, the stages are launched one after the other. -/
theorem execAll_of_wired (flow : Flow) {stages : List Stage} {connections : List Connection}
    (wired : s.wired = true) (running : s.halted = false)
    (behind : s.pipeline.stages.drop s.next = stages) (pending : s.pending = connections)
    (same : stages.length = connections.length) :
    CameTo s flow (launchEach l (stages.zip connections) s.world) (execAll l flow s) := by
  -- the stages behind and the connections that are pending get shorter together
  induction stages generalizing s flow connections with
  | nil =>
      have spent : s.hasNext = false := by
        rw [hasNext, running, Pipeline.size, Bool.not_false, Bool.true_and, decide_eq_false_iff_not,
          Nat.not_lt]
        exact List.drop_eq_nil_iff.mp behind
      obtain rfl : connections = [] := List.length_eq_zero_iff.mp same.symm
      rw [execAll_of_not_hasNext spent]
      refine ⟨rfl, (List.append_nil _).symm, ?_⟩
      rw [halt, pending]
      rfl
  | cons stage stages ih =>
      obtain ⟨c, connections, rfl⟩ : ∃ c rest, connections = c :: rest := by
        cases connections with
        | nil => cases same
        | cons c rest => exact ⟨c, rest, rfl⟩
      have more : s.next < s.pipeline.stages.length := by
        by_contra spent
        rw [List.drop_eq_nil_of_le (Nat.not_lt.mp spent)] at behind
        cases behind
      rw [List.drop_eq_getElem_cons more, List.cons.injEq] at behind
      obtain ⟨here, behind⟩ := behind
      have left : s.hasNext = true := by
        rw [hasNext, running, Pipeline.size, Bool.not_false, Bool.true_and, decide_eq_true_eq]
        exact more
      have step := execNext_of_pending (l := l) left wired pending
        ((List.getElem?_eq_getElem more).trans (congrArg some here))
      rcases outcome : l.launch stage c s.world with ⟨cause | launched, world⟩
      · rw [launch_of_error (s := { s with pending := connections }) outcome] at step
        rw [execAll_of_error left step, List.zip_cons_cons, launchEach_of_error outcome]
        refine ⟨rfl, (List.append_nil _).symm, ?_⟩
        rw [List.map_snd_zip (Nat.le_of_eq (Nat.succ.inj same).symm)]
        rfl
      · rw [launch_of_ok (s := { s with pending := connections }) outcome] at step
        rw [execAll_of_ok left step, List.zip_cons_cons, launchEach_of_ok outcome]
        obtain ⟨result, handles, world⟩ := ih (launched.flow.after flow)
          (s := { s with
            pending := connections, world, next := s.next + 1
            launched := s.launched ++ launched.handles })
          wired running behind rfl (Nat.succ.inj same)
        refine ⟨result, ?_, world⟩
        rw [handles, List.flatMap_cons, List.append_assoc]

variable {p : Pipeline} {world : Shell × σ} {machine : Machine}

theorem execAll_start (flow : Flow) {connections : List Connection} (staged : p.stages ≠ [])
    (outcome : wire p world.1.machine = (.ok connections, machine)) :
    CameTo (start world p) flow
      (launchEach l (p.stages.zip connections) ({ world.1 with machine }, world.2))
      (execAll l flow (start world p)) := by
  have left := hasNext_start world staged
  rw [execAll_congr left (t := { start world p with
      wired := true
      pending := connections
      world := ({ world.1 with machine }, world.2) }) left (execNext_of_wire left rfl outcome)]
  obtain ⟨result, launched, after⟩ := execAll_of_wired (l := l) flow
    (s := { start world p with
      wired := true
      pending := connections
      world := ({ world.1 with machine }, world.2) })
    rfl rfl rfl rfl (length_wire outcome).symm
  exact ⟨result, launched, after⟩

theorem execAll_start_of_refusal (staged : p.stages ≠ []) {cause : ResourceError}
    (outcome : wire p world.1.machine = (.error cause, machine)) :
    execAll l flow (start world p) = (.error (.resource cause),
      { start world p with
        wired := true
        halted := true
        world := ({ world.1 with machine }, world.2) }) :=
  execAll_of_error (hasNext_start world staged)
    (execNext_of_refusal (hasNext_start world staged) rfl outcome)

end Supervisor

/-! ## Launchers that run builtins as builtins -/

/-- Builtin stages are run as builtins and all others become processes, if they can be launched. -/
structure Launcher.RunsBuiltins (l : Launcher σ) : Prop where
  builtin : ∀ stage c world launched, stage.isBuiltin = true →
    (l.launch stage c world).1 = .ok launched → ∃ b sink sh flow,
      Builtin.ofName? stage.name = some b ∧ (b.run stage.argv sink sh).1 = .done flow ∧
        launched = .builtin flow
  program : ∀ stage c world launched, stage.isBuiltin = false →
    (l.launch stage c world).1 = .ok launched → ∃ handle, launched = .process handle

theorem Builtin.ofName?_eq_some_iff {name : String} {b : Builtin} :
    Builtin.ofName? name = some b ↔ name = b.name := by
  constructor
  · intro found
    have matching := List.find?_some found
    exact (of_decide_eq_true matching).symm
  · rintro rfl
    exact Builtin.ofName?_name b

theorem Builtin.Outcome.result_eq_ok_iff {outcome : Builtin.Outcome} {flow : Flow} :
    outcome.result = .ok flow ↔ outcome = .done flow := by
  cases outcome <;> simp [Outcome.result]

theorem Rehearsal.runsBuiltins : Rehearsal.launcher.RunsBuiltins where
  builtin := by
    rintro stage c ⟨sh, r⟩ launched builtin went
    simp only [launcher, builtin, if_true] at went
    split at went
    · cases went
    · rw [runBuiltin] at went
      split at went
      · cases went
      · next b named =>
          obtain ⟨flow, done, rfl⟩ := map_eq_ok_iff.mp went
          exact ⟨b, {}, _, flow, named, Builtin.Outcome.result_eq_ok_iff.mp done, rfl⟩
  program := by
    rintro stage c ⟨sh, r⟩ launched program went
    simp only [launcher, program, Bool.false_eq_true, if_false] at went
    split at went
    · cases went
    · cases went
      exact ⟨_, rfl⟩

theorem Job.runsBuiltins (order : Handshake) : (Job.launcher order).RunsBuiltins where
  builtin := by
    rintro stage c ⟨sh, ended⟩ launched builtin went
    simp only [launcher, builtin, if_true, runBuiltin] at went
    obtain ⟨flow, ran, rfl⟩ := map_eq_ok_iff.mp went
    split at ran
    · cases ran
    · next b named => exact ⟨b, {}, _, flow, named, Builtin.Outcome.result_eq_ok_iff.mp ran, rfl⟩
  program := by
    rintro stage c ⟨sh, ended⟩ launched program went
    simp only [launcher, program, Bool.false_eq_true, if_false] at went
    rcases spawned : (spawn order stage c sh).1 with cause | handle
    · rw [spawned] at went
      cases went
    · rw [spawned] at went
      cases went
      exact ⟨handle, rfl⟩

/-! ## What a pipeline tells the shell -/

theorem flowOf_launchEach_of_programs {l : Launcher σ} (runs : l.RunsBuiltins)
    {pairs : List (Stage × Connection)} (programs : ∀ pair ∈ pairs, pair.1.isBuiltin = false)
    (world : Shell × σ) (flow : Flow) : flowOf (launchEach l pairs world).launched flow = flow := by
  induction pairs generalizing world with
  | nil => rfl
  | cons pair pairs ih =>
      obtain ⟨stage, c⟩ := pair
      rcases outcome : l.launch stage c world with ⟨cause | launched, after⟩
      · rw [launchEach_of_error outcome]
        rfl
      · rw [launchEach_of_ok outcome]
        obtain ⟨handle, rfl⟩ :=
          runs.program stage c world launched (programs _ List.mem_cons_self) (by rw [outcome])
        exact ih (fun pair member => programs pair (List.mem_cons_of_mem _ member)) after

theorem flowOf_launchEach_of_builtin {l : Launcher σ} (runs : l.RunsBuiltins) {stage : Stage}
    (builtin : stage.isBuiltin = true) (c : Connection) (world : Shell × σ)
    (unfailed : (launchEach l [(stage, c)] world).failure = none) :
    flowOf (launchEach l [(stage, c)] world).launched .proceed =
      if stage.name = Builtin.bye.name then .exit else .proceed := by
  rcases outcome : l.launch stage c world with ⟨cause | launched, after⟩
  · rw [launchEach_of_error outcome] at unfailed
    cases unfailed
  · obtain ⟨b, sink, sh, flow, named, done, rfl⟩ :=
      runs.builtin stage c world launched builtin (by rw [outcome])
    rw [launchEach_of_ok outcome, Builtin.flow_run done, Builtin.ofName?_eq_some_iff.mp named]
    cases b <;> rfl

theorem Pipeline.flow_of_programs {p : Pipeline}
    (programs : ∀ stage ∈ p.stages, stage.isBuiltin = false) : p.flow = .proceed := by
  rw [flow, if_neg]
  rw [isBye]
  split
  · next stage shape =>
      have program := programs stage (by rw [shape]; exact List.mem_singleton_self stage)
      rw [program]
      exact Bool.false_ne_true
  · exact Bool.false_ne_true

theorem Pipeline.flow_of_builtin {p : Pipeline} {stage : Stage} (shape : p.stages = [stage])
    (builtin : stage.isBuiltin = true) :
    p.flow = if stage.name = Builtin.bye.name then .exit else .proceed := by
  rw [flow, isBye, shape]
  simp [builtin]

/-- If all stages of a coherent pipeline are launched, they tell the shell to exit just when the
pipeline is the builtin `bye`. -/
theorem flowOf_launchEach {l : Launcher σ} (runs : l.RunsBuiltins) {ctx : Context} {p : Pipeline}
    (coherent : p.Coherent ctx) {connections : List Connection}
    (same : connections.length = p.size) (world : Shell × σ)
    (unfailed : (launchEach l (p.stages.zip connections) world).failure = none) :
    flowOf (launchEach l (p.stages.zip connections) world).launched .proceed = p.flow := by
  by_cases programs : ∀ stage ∈ p.stages, stage.isBuiltin = false
  · rw [Pipeline.flow_of_programs programs]
    exact flowOf_launchEach_of_programs runs
      (fun pair member => programs pair.1 (List.of_mem_zip member).1) world .proceed
  -- a builtin is the only stage of its pipeline, since the pipeline was compiled
  · push Not at programs
    obtain ⟨stage, member, builtin⟩ := programs
    rw [ne_eq, Bool.not_eq_false] at builtin
    have single := (coherent.alone member builtin).1
    obtain ⟨only, shape⟩ := List.length_eq_one_iff.mp single
    obtain ⟨c, rfl⟩ := List.length_eq_one_iff.mp (same.trans single)
    rw [shape, List.mem_singleton] at member
    subst member
    rw [Pipeline.flow_of_builtin shape builtin]
    rw [shape] at unfailed ⊢
    exact flowOf_launchEach_of_builtin runs builtin c world unfailed

/-! ## Evaluation and its reference -/

theorem eval_eq_reference {l : Launcher σ} (runs : l.RunsBuiltins) (line : String)
    (world : Shell × σ) : eval l line world = reference l line world := by
  unfold eval reference
  rcases compiled : compile world.1.context line with cause | p
  · rfl
  · have coherent := coherent_of_compile compiled
    rcases outcome : wire p world.1.machine with ⟨cause | connections, machine⟩
    · simp only [Supervisor.execAll_start_of_refusal coherent.staged outcome, outcome]
      rfl
    · obtain ⟨result, launched, after⟩ :=
        Supervisor.execAll_start (l := l) .proceed coherent.staged outcome
      simp only [outcome, carryOut, Supervisor.world_finish, launched, after]
      refine Prod.ext (result.trans ?_) rfl
      cases failure :
          (launchEach l (p.stages.zip connections) ({ world.1 with machine }, world.2)).failure with
      | some cause => rfl
      | none =>
          rw [flowOf_launchEach runs coherent (length_wire outcome) _ failure]

/-! ## The calls of an evaluation -/

/-- Launches from left to right: of all stages, or of those up to the first that failed. -/
inductive LaunchedInOrder : List (Stage × Connection) → Option ShellError → List Event → Prop
  | all : LaunchedInOrder [] none []
  | failed (sh : Shell) (stage : Stage) (c : Connection) (rest : List (Stage × Connection))
      (cause : ShellError) :
      LaunchedInOrder ((stage, c) :: rest) (some cause) [.launch sh stage c (.error cause)]
  | next (sh : Shell) (stage : Stage) (c : Connection) (launched : Launched)
      {rest : List (Stage × Connection)} {failure : Option ShellError} {events : List Event}
      (others : LaunchedInOrder rest failure events) :
      LaunchedInOrder ((stage, c) :: rest) failure (.launch sh stage c (.ok launched) :: events)

theorem launchEach_recording (l : Launcher σ) (pairs : List (Stage × Connection)) (sh : Shell)
    (own : σ) (log : List Event) :
    let plain := launchEach l pairs (sh, own)
    ∃ started, LaunchedInOrder pairs plain.failure started ∧
      processes started = plain.launched.flatMap Launched.handles ∧
      launchEach l.recording pairs (sh, own, log) =
        { failure := plain.failure, launched := plain.launched
          world := (plain.world.1, plain.world.2, log ++ started) } := by
  induction pairs generalizing sh own log with
  | nil =>
      refine ⟨[], .all, rfl, ?_⟩
      rw [launchEach, launchEach, List.append_nil]
  | cons pair pairs ih =>
      obtain ⟨stage, c⟩ := pair
      have recorded := Launcher.recording_launch l stage c sh own log
      rcases outcome : l.launch stage c (sh, own) with ⟨cause | launched, after, own'⟩
      · rw [outcome] at recorded
        refine ⟨[.launch sh stage c (.error cause)], ?_, ?_, ?_⟩
        · rw [launchEach_of_error outcome]
          exact .failed sh stage c pairs cause
        · rw [launchEach_of_error outcome]
          rfl
        · rw [launchEach_of_error outcome, launchEach_of_error recorded]
      · rw [outcome] at recorded
        obtain ⟨started, order, given, others⟩ :=
          ih after own' (log ++ [.launch sh stage c (.ok launched)])
        refine ⟨.launch sh stage c (.ok launched) :: started, ?_, ?_, ?_⟩
        · rw [launchEach_of_ok outcome]
          exact .next sh stage c launched order
        · rw [launchEach_of_ok outcome, List.flatMap_cons, ← given]
          cases launched <;> rfl
        · rw [launchEach_of_ok outcome, launchEach_of_ok recorded, others, List.append_assoc]
          rfl

theorem foldl_await_recording (l : Launcher σ) (handles : List Handle) (sh : Shell) (own : σ)
    (log : List Event) :
    let plain := handles.foldl (await l) (sh, own)
    ∃ reaped, launches reaped = [] ∧ waits reaped = handles ∧
      handles.foldl (await l.recording) (sh, own, log) = (plain.1, plain.2, log ++ reaped) := by
  induction handles generalizing sh own log with
  | nil => exact ⟨[], rfl, rfl, by rw [List.append_nil]; rfl⟩
  | cons handle handles ih =>
      have recorded := Launcher.recording_wait l handle sh own log
      obtain ⟨after, own', result, plain, logged⟩ : ∃ after own' result,
          await l (sh, own) handle = (after, own') ∧
            await l.recording (sh, own, log) handle =
              (after, own', log ++ [.wait sh handle result]) := by
        rcases outcome : l.wait handle (sh, own) with ⟨cause | status, after, own'⟩ <;>
          rw [outcome] at recorded <;>
          exact ⟨_, _, _, by rw [await, outcome], by rw [await, recorded]⟩
      obtain ⟨reaped, still, waited, others⟩ := ih after own' (log ++ [.wait sh handle result])
      refine ⟨.wait sh handle result :: reaped, still, congrArg (handle :: ·) waited, ?_⟩
      rw [List.foldl_cons, List.foldl_cons, plain, logged, others, List.append_assoc]
      rfl

theorem carryOut_recording (l : Launcher σ) (p : Pipeline) (connections : List Connection)
    (sh : Shell) (own : σ) (log : List Event) :
    let plain := carryOut l p connections (sh, own)
    ∃ failure started reaped, LaunchedInOrder (p.stages.zip connections) failure started ∧
      launches reaped = [] ∧ waits reaped = processes started ∧
      plain.1 = failure.elim (.ok p.flow) .error ∧
      carryOut l.recording p connections (sh, own, log) =
        (plain.1, plain.2.1, plain.2.2, log ++ (started ++ reaped)) := by
  obtain ⟨started, order, given, launched⟩ :=
    launchEach_recording l (p.stages.zip connections) sh own log
  obtain ⟨reaped, still, waited, awaited⟩ := foldl_await_recording l
    ((launchEach l (p.stages.zip connections) (sh, own)).launched.flatMap Launched.handles)
    (launchEach l (p.stages.zip connections) (sh, own)).world.1
    (launchEach l (p.stages.zip connections) (sh, own)).world.2 (log ++ started)
  refine ⟨_, started, reaped, order, still, waited.trans given.symm, rfl, ?_⟩
  simp only [carryOut, launched, awaited, List.append_assoc]

/-- The calls that evaluating a line makes. -/
def calls (l : Launcher σ) (line : String) (world : Shell × σ) : List Event :=
  (eval l.recording line (world.1, world.2, [])).2.2.2

theorem Launcher.RunsBuiltins.recording {l : Launcher σ} (runs : l.RunsBuiltins) :
    l.recording.RunsBuiltins where
  builtin stage c world := runs.builtin stage c (world.1, world.2.1)
  program stage c world := runs.program stage c (world.1, world.2.1)

theorem Launcher.RunsBuiltins.congr {l l' : Launcher σ} (runs : l.RunsBuiltins)
    (same : l'.launch = l.launch) : l'.RunsBuiltins where
  builtin := by rw [same]; exact runs.builtin
  program := by rw [same]; exact runs.program

theorem launchEach_congr {l l' : Launcher σ} (same : l'.launch = l.launch)
    (pairs : List (Stage × Connection)) (world : Shell × σ) :
    launchEach l' pairs world = launchEach l pairs world := by
  induction pairs generalizing world with
  | nil => rfl
  | cons pair pairs ih =>
      simp only [launchEach, same, ih]

/-- What evaluating a line results in, and the calls that it makes. -/
structure MeetsReference (l : Launcher σ) (line : String) (world : Shell × σ) : Prop where
  same : eval l line world = reference l line world
  /-- The calls are the only difference that recording makes. -/
  observed : eval l.recording line (world.1, world.2, []) =
    ((eval l line world).1, (eval l line world).2.1, (eval l line world).2.2, calls l line world)
  uncompiled : ∀ cause, compile world.1.context line = .error cause →
    (eval l line world).1 = .error cause ∧ calls l line world = []
  unwired : ∀ p cause machine, compile world.1.context line = .ok p →
    wire p world.1.machine = (.error cause, machine) →
      (eval l line world).1 = .error (.resource cause) ∧ calls l line world = []
  /-- Stages are launched up to the first failure, which is the result, and then every process is
  waited for. -/
  wired : ∀ p connections machine, compile world.1.context line = .ok p →
    wire p world.1.machine = (.ok connections, machine) → ∃ failure started reaped,
      calls l line world = started ++ reaped ∧
      LaunchedInOrder (p.stages.zip connections) failure started ∧
      launches reaped = [] ∧ waits reaped = processes started ∧
      (eval l line world).1 = failure.elim (.ok p.flow) .error
  /-- What comes of waiting has no part in the result. -/
  unmoved : ∀ l' : Launcher σ, l'.launch = l.launch →
    (eval l' line world).1 = (eval l line world).1

section Calls

variable {l : Launcher σ} {line : String} {world : Shell × σ} {p : Pipeline} {machine : Machine}

theorem observed_of_uncompiled (runs : l.RunsBuiltins) {cause : ShellError}
    (failed : compile world.1.context line = .error cause) :
    eval l line world = (.error cause, world) ∧
      eval l.recording line (world.1, world.2, []) = (.error cause, world.1, world.2, []) := by
  rw [eval_eq_reference runs, eval_eq_reference runs.recording]
  exact ⟨reference_of_uncompiled failed, reference_of_uncompiled failed⟩

theorem observed_of_unwired (runs : l.RunsBuiltins) {cause : ResourceError}
    (compiled : compile world.1.context line = .ok p)
    (failed : wire p world.1.machine = (.error cause, machine)) :
    eval l line world = (.error (.resource cause), ({ world.1 with machine }, world.2)) ∧
      eval l.recording line (world.1, world.2, []) =
        (.error (.resource cause), { world.1 with machine }, world.2, []) := by
  rw [eval_eq_reference runs, eval_eq_reference runs.recording]
  exact ⟨reference_of_unwired compiled failed, reference_of_unwired compiled failed⟩

theorem observed_of_wired (runs : l.RunsBuiltins) {connections : List Connection}
    (compiled : compile world.1.context line = .ok p)
    (wired : wire p world.1.machine = (.ok connections, machine)) :
    ∃ failure started reaped, LaunchedInOrder (p.stages.zip connections) failure started ∧
      launches reaped = [] ∧ waits reaped = processes started ∧
      (eval l line world).1 = failure.elim (.ok p.flow) .error ∧
      eval l.recording line (world.1, world.2, []) =
        ((eval l line world).1, (eval l line world).2.1, (eval l line world).2.2,
          started ++ reaped) := by
  have recorded : reference l.recording line (world.1, world.2, []) =
      carryOut l.recording p connections ({ world.1 with machine }, world.2, []) :=
    reference_of_wired compiled wired
  rw [eval_eq_reference runs, reference_of_wired compiled wired, eval_eq_reference runs.recording,
    recorded]
  exact carryOut_recording l p connections { world.1 with machine } world.2 []

theorem observed (runs : l.RunsBuiltins) :
    eval l.recording line (world.1, world.2, []) = ((eval l line world).1, (eval l line world).2.1,
      (eval l line world).2.2, calls l line world) := by
  rcases compiled : compile world.1.context line with cause | p
  · obtain ⟨plain, recorded⟩ := observed_of_uncompiled runs compiled
    rw [calls, recorded, plain]
  · rcases outcome : wire p world.1.machine with ⟨cause | connections, machine⟩
    · obtain ⟨plain, recorded⟩ := observed_of_unwired runs compiled outcome
      rw [calls, recorded, plain]
    · obtain ⟨_, started, reaped, -, -, -, -, recorded⟩ := observed_of_wired runs compiled outcome
      rw [calls, recorded]

theorem result_congr {l' : Launcher σ} (runs : l.RunsBuiltins) (same : l'.launch = l.launch) :
    (eval l' line world).1 = (eval l line world).1 := by
  rw [eval_eq_reference runs, eval_eq_reference (runs.congr same)]
  rcases compiled : compile world.1.context line with cause | p
  · rw [reference_of_uncompiled compiled, reference_of_uncompiled compiled]
  · rcases outcome : wire p world.1.machine with ⟨cause | connections, machine⟩
    · rw [reference_of_unwired compiled outcome, reference_of_unwired compiled outcome]
    · rw [reference_of_wired compiled outcome, reference_of_wired compiled outcome, carryOut,
        launchEach_congr same, carryOut]

end Calls

/-- With any launcher that runs builtins as builtins, evaluating a line is what it comes to without
a supervisor, and it makes the calls that this takes. -/
theorem eval_meets_reference (l : Launcher σ) (line : String) (world : Shell × σ)
    (runs : l.RunsBuiltins) : MeetsReference l line world where
  same := eval_eq_reference runs line world
  observed := observed runs
  uncompiled := by
    intro cause failed
    obtain ⟨plain, recorded⟩ := observed_of_uncompiled runs failed
    rw [calls, recorded, plain]
    exact ⟨rfl, rfl⟩
  unwired := by
    intro p cause machine compiled failed
    obtain ⟨plain, recorded⟩ := observed_of_unwired runs compiled failed
    rw [calls, recorded, plain]
    exact ⟨rfl, rfl⟩
  wired := by
    intro p connections machine compiled outcome
    obtain ⟨failure, started, reaped, order, still, waited, result, recorded⟩ :=
      observed_of_wired runs compiled outcome
    refine ⟨failure, started, reaped, ?_, order, still, waited, result⟩
    rw [calls, recorded]
  unmoved _ same := result_congr runs same

/-- The shell itself evaluates lines so. -/
theorem eval_meets_reference_with_jobs :
    MeetsReference (Job.launcher .joinAdoptExec) "sort | uniq" (bareShell, []) :=
  eval_meets_reference _ _ _ (Job.runsBuiltins .joinAdoptExec)

end PipeShell
