import PipeShell.Proofs.Interpreter.Spares
import PipeShell.Proofs.ReadLoop.Law

/-!
# Where the shell is

The working directory and the environment of the shell, and the directories that its session has
added, change when a builtin runs and at no other time: not by wiring, not by starting a process and
not by waiting for one.  So a line comes to one call of a builtin (`world_eval_of_calls`) or it leaves
all of them alone (`stays_or_calls_eval`), and what builtins keep, the loop keeps
(`ReadLoop.keeps_course`); it holds before each line, if it is kept by every line
(`ReadLoop.holds_before_evaluations`).
-/

set_option autoImplicit false

namespace PipeShell

/-- The shell is in the same place, and its session has added no directory. -/
structure Shell.Stays (sh sh' : Shell) : Prop extends sh.machine.StaysPut sh'.machine where
  addedPaths : sh'.session.addedPaths = sh.session.addedPaths

namespace Shell.Stays

variable {sh sh₁ sh₂ : Shell}

theorem refl (sh : Shell) : sh.Stays sh := ⟨.refl sh.machine, rfl⟩

theorem trans (first : sh.Stays sh₁) (second : sh₁.Stays sh₂) : sh.Stays sh₂ :=
  ⟨first.toStaysPut.trans second.toStaysPut, second.addedPaths.trans first.addedPaths⟩

theorem disconnect (sh : Shell) (c : Connection) : sh.Stays (sh.disconnect c) :=
  ⟨(Machine.rewired_closeAll sh.machine c.owned).toStaysPut, rfl⟩

theorem disconnectAll (sh : Shell) (connections : List Connection) :
    sh.Stays (sh.disconnectAll connections) := by
  rw [Shell.disconnectAll_eq]
  exact ⟨(Machine.rewired_closeAll sh.machine _).toStaysPut, rfl⟩

theorem ask (sh : Shell) (interactive : Bool) : sh.Stays (sh.ask interactive) := by
  unfold Shell.ask
  split <;> exact ⟨⟨rfl, rfl⟩, rfl⟩

theorem printAll (sh : Shell) (texts : List String) : sh.Stays (sh.printAll texts) := by
  rw [Shell.printAll]
  induction texts generalizing sh with
  | nil => exact .refl sh
  | cons text texts ih =>
      have printed : sh.Stays (sh.print text) := ⟨⟨rfl, rfl⟩, rfl⟩
      exact printed.trans (ih (sh.print text))

end Shell.Stays

open Shell (Stays)

/-! ## Calls of the launcher -/

namespace Job

theorem stays_spawn (order : Handshake) (stage : Stage) (c : Connection) (sh : Shell) :
    sh.Stays (spawn order stage c sh).2 := by
  have closed : ∀ m : Machine, m.StaysPut (m.closeAll c.owned) :=
    fun m => (Machine.rewired_closeAll m c.owned).toStaysPut
  unfold spawn
  split
  · exact .disconnect sh c
  · split <;> next looked =>
      obtain rfl := Machine.nextFault_snd looked
      exact ⟨⟨(closed _).cwd, (closed _).env⟩, rfl⟩

/-- What processes do while the shell waits does not concern it. -/
theorem stays_await (order : Handshake) (handle : Handle) (world : Shell × List WaitStatus) :
    world.1.Stays (Supervisor.await (launcher order) world handle).1 := by
  obtain ⟨sh, ended⟩ := world
  have spared := (Machine.spares_wait sh.machine handle.pid).toStaysPut
  simp only [Supervisor.await, launcher]
  rcases outcome : sh.machine.wait handle.pid with ⟨cause | status, m⟩ <;> rw [outcome] at spared
  · exact ⟨spared, rfl⟩
  · by_cases known : status.isKnown = true
    · simp only [known, if_true]
      exact ⟨spared, rfl⟩
    · simp only [known]
      exact ⟨spared, rfl⟩

theorem stays_foldl_await (order : Handshake) (handles : List Handle)
    (world : Shell × List WaitStatus) :
    world.1.Stays (handles.foldl (Supervisor.await (launcher order)) world).1 := by
  induction handles generalizing world with
  | nil => exact .refl _
  | cons handle handles ih => exact (stays_await order handle world).trans (ih _)

variable (order : Handshake) {stage : Stage}

theorem stays_launch_of_program (program : stage.isBuiltin = false) (c : Connection)
    (world : Shell × List WaitStatus) :
    world.1.Stays ((launcher order).launch stage c world).2.1 := by
  obtain ⟨sh, ended⟩ := world
  simp only [launcher, program, Bool.false_eq_true, if_false]
  exact stays_spawn order stage c sh

/-- A builtin alone is called once, and what it wrote is printed. -/
theorem launch_of_builtin (builtin : stage.isBuiltin = true) {b : Builtin}
    (named : Builtin.ofName? stage.name = some b) (sh : Shell) (ended : List WaitStatus) :
    (launcher order).launch stage ⟨.stdin, .stdout⟩ (sh, ended) =
      ((b.run stage.argv {} sh).1.result.map .builtin,
        { (b.run stage.argv {} sh).2.2 with
          machine := (b.run stage.argv {} sh).2.2.machine.print
            (b.run stage.argv {} sh).2.1.written },
        ended) := by
  simp only [launcher, builtin, if_true, runBuiltin, named]
  rfl

theorem world_launchEach_of_builtin (builtin : stage.isBuiltin = true) {b : Builtin}
    (named : Builtin.ofName? stage.name = some b) (sh : Shell) (ended : List WaitStatus) :
    let ran := b.run stage.argv {} sh
    let launches := launchEach (launcher order) [(stage, ⟨.stdin, .stdout⟩)] (sh, ended)
    launches.world =
        ({ ran.2.2 with machine := ran.2.2.machine.print ran.2.1.written }, ended) ∧
      launches.launched.flatMap Launched.handles = [] := by
  intro ran launches
  have launched : (launcher order).launch stage ⟨.stdin, .stdout⟩ (sh, ended) =
      (ran.1.result.map .builtin,
        { ran.2.2 with machine := ran.2.2.machine.print ran.2.1.written }, ended) :=
    launch_of_builtin order builtin named sh ended
  rcases result : ran.1.result with cause | flow <;> rw [result] at launched
  · simp only [launches, launchEach_of_error launched]
    exact ⟨rfl, rfl⟩
  · simp only [launches, launchEach_of_ok launched]
    exact ⟨rfl, rfl⟩

theorem failure_launchEach_of_builtin (builtin : stage.isBuiltin = true) {b : Builtin}
    (named : Builtin.ofName? stage.name = some b) (sh : Shell) (ended : List WaitStatus)
    (cause : ShellError) :
    (launchEach (launcher order) [(stage, ⟨.stdin, .stdout⟩)] (sh, ended)).failure = some cause ↔
      (b.run stage.argv {} sh).1.result = .error cause := by
  have launched := launch_of_builtin order builtin named sh ended
  rcases result : (b.run stage.argv {} sh).1.result with other | flow <;> rw [result] at launched
  · rw [launchEach_of_error launched]
    simp
  · rw [launchEach_of_ok launched]
    simp [launchEach]

theorem stays_launchEach_of_programs (pairs : List (Stage × Connection))
    (programs : ∀ pair ∈ pairs, pair.1.isBuiltin = false) (world : Shell × List WaitStatus) :
    world.1.Stays (launchEach (launcher order) pairs world).world.1 := by
  induction pairs generalizing world with
  | nil => exact .refl _
  | cons pair pairs ih =>
      obtain ⟨stage, c⟩ := pair
      have launched : world.1.Stays ((launcher order).launch stage c world).2.1 :=
        stays_launch_of_program order (programs _ List.mem_cons_self) c world
      rcases outcome : (launcher order).launch stage c world with ⟨cause | launched', after⟩
      · rw [outcome] at launched
        rw [launchEach_of_error outcome]
        exact launched.trans (.disconnectAll _ _)
      · rw [outcome] at launched
        rw [launchEach_of_ok outcome]
        exact launched.trans (ih (fun other member => programs other (.tail _ member)) after)

end Job

/-! ## Lines -/

/-- In this session the line stands for a call of the builtin with these arguments. -/
def Context.Calls (ctx : Context) (line : String) (b : Builtin) (argv : List String) : Prop :=
  ∃ p stage, compile ctx line = .ok p ∧ p.stages = [stage] ∧ stage.isBuiltin = true ∧
    Builtin.ofName? stage.name = some b ∧ stage.argv = argv

/-- A builtin stands alone in its line, which is a call of it. -/
theorem calls_of_builtin {sh : Shell} {line : String} {p : Pipeline}
    (compiled : compile sh.context line = .ok p) {stage : Stage} (member : stage ∈ p.stages)
    (builtin : stage.isBuiltin = true) :
    ∃ b, Builtin.ofName? stage.name = some b ∧ sh.context.Calls line b stage.argv := by
  have coherent := coherent_of_compile compiled
  have known : (Builtin.ofName? stage.name).isSome = true :=
    (coherent.resolved stage member).symm.trans builtin
  obtain ⟨b, named⟩ := Option.isSome_iff_exists.mp known
  obtain ⟨only, shape⟩ := List.length_eq_one_iff.mp (coherent.alone member builtin).1
  rw [shape, List.mem_singleton] at member
  subst member
  exact ⟨b, named, p, stage, compiled, shape, builtin, named, rfl⟩

/-- A pipeline that is a builtin needs no call of the system. -/
theorem wire_of_builtin {ctx : Context} {p : Pipeline} (coherent : p.Coherent ctx) {stage : Stage}
    (shape : p.stages = [stage]) (builtin : stage.isBuiltin = true) (m : Machine) :
    wire p m = (.ok [⟨.stdin, .stdout⟩], m) := by
  have member : stage ∈ p.stages := by
    rw [shape]
    exact List.mem_singleton_self stage
  obtain ⟨single, unread, unwritten⟩ := coherent.alone member builtin
  have opens : Wiring.Opens p m .stdin [] .stdout m := by
    refine ⟨?_, m, m, .none m, ?_, ?_⟩
    · rw [Pipeline.pipeCount, single]
      rfl
    · rw [unread]
      exact .own m
    · rw [unwritten]
      exact .own m
  exact Wiring.wire_of_opens coherent opens

theorem world_eval_of_calls (order : Handshake) {line : String} {world : Shell × List WaitStatus}
    {b : Builtin} {argv : List String} (calls : world.1.context.Calls line b argv) :
    let ran := b.run argv {} world.1
    (eval (Job.launcher order) line world).2 =
      ({ ran.2.2 with machine := ran.2.2.machine.print ran.2.1.written }, world.2) := by
  obtain ⟨p, stage, compiled, shape, builtin, named, rfl⟩ := calls
  have wired := wire_of_builtin (coherent_of_compile compiled) shape builtin world.1.machine
  obtain ⟨ran, unwaited⟩ := Job.world_launchEach_of_builtin order builtin named world.1 world.2
  rw [eval_eq_reference (Job.runsBuiltins order), reference_of_wired compiled wired, carryOut,
    shape, List.zip_cons_cons, List.zip_nil_right]
  dsimp only
  rw [unwaited, List.foldl_nil]
  exact ran

/-- A line that calls a builtin results in what the builtin results in. -/
theorem result_eval_of_calls (order : Handshake) {line : String} {world : Shell × List WaitStatus}
    {b : Builtin} {argv : List String} (calls : world.1.context.Calls line b argv) :
    (eval (Job.launcher order) line world).1 = (b.run argv {} world.1).1.result := by
  obtain ⟨p, stage, compiled, shape, builtin, named, rfl⟩ := calls
  have wired := wire_of_builtin (coherent_of_compile compiled) shape builtin world.1.machine
  have fails := Job.failure_launchEach_of_builtin order builtin named world.1 world.2
  rw [eval_eq_reference (Job.runsBuiltins order), reference_of_wired compiled wired, carryOut,
    shape, List.zip_cons_cons, List.zip_nil_right]
  dsimp only
  cases failure : (launchEach (Job.launcher order) [(stage, ⟨.stdin, .stdout⟩)]
    (world.1, world.2)).failure with
  | some cause => exact ((fails cause).mp failure).symm
  | none =>
      rcases result : (b.run stage.argv {} world.1).1.result with cause | flow
      · rw [failure] at fails
        cases (fails cause).mpr result
      · -- what the builtin tells the shell is what its name alone says
        have told := Builtin.flow_run (Builtin.Outcome.result_eq_ok_iff.mp result)
        rw [Option.elim_none, Pipeline.flow_of_builtin shape builtin, told,
          Builtin.ofName?_eq_some_iff.mp named]
        cases b <;> rfl

/-- What a builtin comes to that prints nothing is what its line comes to. -/
theorem eval_of_quiet_call (order : Handshake) {line : String} {sh sh' : Shell}
    (ended : List WaitStatus) {b : Builtin} {argv : List String}
    (calls : sh.context.Calls line b argv) {outcome : Builtin.Outcome}
    (ran : b.run argv {} sh = (outcome, {}, sh')) :
    eval (Job.launcher order) line (sh, ended) = (outcome.result, sh', ended) := by
  have result : (eval (Job.launcher order) line (sh, ended)).1 = (b.run argv {} sh).1.result :=
    result_eval_of_calls order calls
  have world : (eval (Job.launcher order) line (sh, ended)).2 =
      ({ (b.run argv {} sh).2.2 with
          machine := (b.run argv {} sh).2.2.machine.print (b.run argv {} sh).2.1.written },
        ended) :=
    world_eval_of_calls order calls
  rw [ran] at result world
  have nothing : Text.packed [] = .empty := rfl
  have unprinted : sh'.machine.print [] = sh'.machine := by
    rw [Machine.print, nothing, ByteArray.append_empty]
  refine Prod.ext result ?_
  rw [world, unprinted]

/-- A line that calls a builtin fails as the builtin does. -/
theorem failure_eval_of_calls (order : Handshake) {line : String} {world : Shell × List WaitStatus}
    {b : Builtin} {argv : List String} (calls : world.1.context.Calls line b argv)
    (cause : ShellError) : (eval (Job.launcher order) line world).1 = .error cause ↔
      (b.run argv {} world.1).1.result = .error cause := by
  rw [result_eval_of_calls order calls]

/-- A line that calls a builtin starts no process. -/
theorem processes_calls_of_calls (order : Handshake) {line : String}
    {world : Shell × List WaitStatus} {b : Builtin} {argv : List String}
    (builtins : world.1.context.Calls line b argv) :
    Launcher.processes (calls (Job.launcher order) line world) = [] := by
  obtain ⟨p, stage, compiled, shape, builtin, named, rfl⟩ := builtins
  have wired := wire_of_builtin (coherent_of_compile compiled) shape builtin world.1.machine
  obtain ⟨-, unwaited⟩ := Job.world_launchEach_of_builtin order builtin named world.1 world.2
  obtain ⟨started, -, given, recorded⟩ := launchEach_recording (Job.launcher order)
    [(stage, ⟨.stdin, .stdout⟩)] world.1 world.2 []
  have carried : reference (Job.launcher order).recording line (world.1, world.2, []) =
      carryOut (Job.launcher order).recording p [⟨.stdin, .stdout⟩] (world.1, world.2, []) :=
    reference_of_wired compiled wired
  rw [calls, eval_eq_reference (Job.runsBuiltins order).recording, carried, carryOut, shape,
    List.zip_cons_cons, List.zip_nil_right, recorded]
  dsimp only
  rw [unwaited, List.foldl_nil, List.nil_append, given, unwaited]

theorem stays_eval_of_calls (order : Handshake) {line : String} {world : Shell × List WaitStatus}
    {b : Builtin} {argv : List String} (calls : world.1.context.Calls line b argv) :
    (b.run argv {} world.1).2.2.Stays (eval (Job.launcher order) line world).2.1 := by
  rw [world_eval_of_calls order calls]
  exact ⟨⟨rfl, rfl⟩, rfl⟩

theorem stays_or_calls_eval (order : Handshake) (line : String)
    (world : Shell × List WaitStatus) :
    world.1.Stays (eval (Job.launcher order) line world).2.1 ∨
      ∃ b argv, world.1.context.Calls line b argv := by
  rw [eval_eq_reference (Job.runsBuiltins order)]
  rcases compiled : compile world.1.context line with cause | p
  · rw [reference_of_uncompiled compiled]
    exact .inl (.refl _)
  · by_cases programs : ∀ stage ∈ p.stages, stage.isBuiltin = false
    · left
      rcases outcome : wire p world.1.machine with ⟨cause | connections, machine⟩
      · rw [reference_of_unwired compiled outcome]
        exact ⟨(Wiring.rewired_wire outcome).toStaysPut, rfl⟩
      · have wired : world.1.Stays { world.1 with machine } :=
          ⟨(Wiring.rewired_wire outcome).toStaysPut, rfl⟩
        rw [reference_of_wired compiled outcome, carryOut]
        have launched := Job.stays_launchEach_of_programs order (p.stages.zip connections)
          (fun pair member => programs _ (List.of_mem_zip member).1)
          ({ world.1 with machine }, world.2)
        exact (wired.trans launched).trans (Job.stays_foldl_await order _ _)
    · right
      push Not at programs
      obtain ⟨stage, member, builtin⟩ := programs
      rw [ne_eq, Bool.not_eq_false] at builtin
      obtain ⟨b, -, calls⟩ := calls_of_builtin compiled member builtin
      exact ⟨b, stage.argv, calls⟩

/-! ## The loop -/

namespace ReadLoop

/-- Before a line is evaluated it is remembered, and after that its error is reported. -/
theorem stays_evaluate (order : Handshake) (line : String) (world : Shell × List WaitStatus) :
    let e := Evaluation.perform (Job.launcher order) line world
    world.1.Stays e.before.1 ∧
      e.after.1.Stays (evaluate (Job.launcher order) line world).2.1 := by
  refine ⟨⟨⟨rfl, rfl⟩, rfl⟩, ?_⟩
  simp only [Evaluation.perform, evaluate]
  rcases eval (Job.launcher order) line (world.1.remember line, world.2) with
    ⟨cause | flow, sh, own⟩
  · cases cause <;> exact ⟨⟨rfl, rfl⟩, rfl⟩
  · cases flow <;> exact ⟨⟨rfl, rfl⟩, rfl⟩

/-- What holds of the shell wherever it is, and is kept by the builtins that are called, holds in the
end. -/
theorem keeps_course {P : Shell → Prop} (stays : ∀ {sh sh'}, P sh → sh.Stays sh' → P sh')
    (order : Handshake) (interactive : Bool) (input : Bytes) (world : Shell × List WaitStatus)
    (runs : ∀ e ∈ (course (Job.launcher order) interactive input world).evaluations,
      ∀ b argv, e.before.1.context.Calls e.line b argv →
        P e.before.1 → P (b.run argv {} e.before.1).2.2)
    (holds : P world.1) : P (course (Job.launcher order) interactive input world).world.1 := by
  have evaluates : ∀ line (world : Shell × List WaitStatus),
      let e := Evaluation.perform (Job.launcher order) line world
      (∀ b argv, e.before.1.context.Calls e.line b argv →
        P e.before.1 → P (b.run argv {} e.before.1).2.2) →
      P world.1 → P (evaluate (Job.launcher order) line world).2.1 := by
    intro line world e runs holds
    obtain ⟨before, after⟩ := stays_evaluate order line world
    rcases stays_or_calls_eval order line (world.1.remember line, world.2) with
      kept | ⟨b, argv, calls⟩
    · exact stays (stays (stays holds before) kept) after
    · exact stays (stays (runs b argv calls (stays holds before))
        (stays_eval_of_calls order calls)) after
  -- one case for each way a round can go; only an evaluation calls builtins
  fun_induction course (Job.launcher order) interactive input world with
  | case1 input world sh ended =>
      have asked := stays holds (.ask world.1 interactive)
      dsimp only
      split
      · exact stays asked ⟨⟨rfl, rfl⟩, rfl⟩
      · exact asked
  | case2 input world sh line rest taken resolved sh' passed ih =>
      exact ih runs (stays (stays holds (.ask world.1 interactive)) (.printAll _ _))
  | case3 input world sh line rest taken resolved sh' chosen named evaluation ending world'
      stopped =>
      have shown : P sh' := stays (stays holds (.ask world.1 interactive)) (.printAll _ _)
      have evaluated := evaluates chosen (sh', world.2) (runs _ List.mem_cons_self) shown
      rwa [stopped] at evaluated
  | case4 input world sh line rest taken resolved sh' chosen named evaluation world' onward others
      ih =>
      have shown : P sh' := stays (stays holds (.ask world.1 interactive)) (.printAll _ _)
      have evaluated := evaluates chosen (sh', world.2) (runs _ List.mem_cons_self) shown
      rw [onward] at evaluated
      exact ih (fun e member => runs e (List.mem_cons_of_mem _ member)) evaluated

/-- What every line keeps, wherever the shell is, holds whenever a line is evaluated. -/
theorem holds_before_evaluations {P : Shell → Prop}
    (stays : ∀ {sh sh'}, P sh → sh.Stays sh' → P sh') (order : Handshake)
    (evaluates : ∀ line (world : Shell × List WaitStatus),
      P world.1 → P (eval (Job.launcher order) line world).2.1)
    (interactive : Bool) (input : Bytes) (world : Shell × List WaitStatus) (holds : P world.1) :
    ∀ e ∈ (course (Job.launcher order) interactive input world).evaluations, P e.before.1 := by
  -- one case for each way a round can go; what an evaluation keeps carries over to the next round
  fun_induction course (Job.launcher order) interactive input world with
  | case1 input world sh ended =>
      intro e member
      cases member
  | case2 input world sh line rest taken resolved sh' passed ih =>
      exact ih (stays (stays holds (.ask world.1 interactive)) (.printAll _ _))
  | case3 input world sh line rest taken resolved sh' chosen named evaluation ending world'
      stopped =>
      have shown : P sh' := stays (stays holds (.ask world.1 interactive)) (.printAll _ _)
      have before : P evaluation.before.1 := stays shown (stays_evaluate order chosen (sh', _)).1
      intro e member
      obtain rfl := List.mem_singleton.mp member
      exact before
  | case4 input world sh line rest taken resolved sh' chosen named evaluation world' onward others
      ih =>
      have shown : P sh' := stays (stays holds (.ask world.1 interactive)) (.printAll _ _)
      obtain ⟨remembered, reported⟩ := stays_evaluate order chosen (sh', world.2)
      have before : P evaluation.before.1 := stays shown remembered
      have after : P evaluation.after.1 := evaluates chosen evaluation.before before
      rw [onward] at reported
      intro e member
      rcases List.mem_cons.mp member with rfl | later
      · exact before
      · exact ih (stays after reported) e later

end ReadLoop

end PipeShell
