import PipeShell.Job.Launch
import PipeShell.Proofs.Interpreter.Spares
import PipeShell.Proofs.Job.Standing
import PipeShell.Proofs.Session.Builtins
import PipeShell.Proofs.Wiring.Ownership

/-!
# The calls of a shell as events

In a session the shell wires pipelines, launches stages, waits for processes and ends its group.
Each of these calls comes to a list of events: a launch to what shell and child do in one of their
orders, without a break (`Family.run_schedule`), and a wait to whatever processes do in the
meantime.  So whatever a shell calls, it shows a run of a family (`Family.Shows.act`).
-/

set_option autoImplicit false

namespace PipeShell

namespace Family

open PipeShell.Group (Joining Placing joinNext placeNext look)

variable {shellGroup pid : Nat} {f : Family} {c : Child}

theorem run_append (f : Family) (events events' : List Event) :
    run shellGroup f (events ++ events') = run shellGroup (run shellGroup f events) events' :=
  List.foldl_append

/-! ## Launches without a break -/

/-- What shell and child do when nobody else takes a turn. -/
def schedule (order : Handshake) (pid : Nat) : List Event :=
  let joins := [Event.join pid, .join pid]
  let places := [Event.place, .place, .place]
  .fork :: match order with
    | .joinAdoptExec => joins ++ places ++ [.exec pid]
    | .joinExecAdopt => joins ++ [.exec pid] ++ places
    | .adoptJoinExec => places ++ joins ++ [.exec pid]

theorem run_joins (known : f.children pid = some c) (asks : c.joining = .asking)
    (alive : c.ended = false) : run shellGroup f [.join pid, .join pid] =
      { f with
        roster := Group.join c.aim pid f.roster
        children := Function.update f.children pid (some { c with joining := .placed }) } := by
  have placed : ∀ r, (joinNext c.aim pid r (joinNext c.aim pid f.roster .asking).1).1 = .placed :=
    fun r => Group.fst_joinNext_of_ne _ _ r (Group.fst_joinNext_asking _ _ _)
  rw [Group.join_eq]
  simp only [run, List.foldl_cons, List.foldl_nil, act, known, alive, Bool.false_eq_true, if_false,
    join, asks, Function.update_self, Function.update_idem, placed]

theorem run_places (new : f.newcomer = some (pid, .asking)) :
    run shellGroup f [.place, .place, .place] =
      { f with
        roster := Group.place f.group pid f.roster
        group := look shellGroup f.group pid (Group.place f.group pid f.roster)
        newcomer := none } := by
  rw [Group.place_eq]
  rcases Group.fst_placeNext_asking f.group pid f.roster with leads | looks
  · have looks := Group.fst_placeNext_leading f.group pid
      (placeNext f.group pid f.roster .asking).2
    simp only [run, List.foldl_cons, List.foldl_nil, act, new, place, leads, looks]
  · simp only [run, List.foldl_cons, List.foldl_nil, act, new, place, looks]
    rfl

theorem run_exec (known : f.children pid = some c) (placed : c.joining = .placed)
    (alive : c.ended = false) :
    run shellGroup f [.exec pid] = { f with roster := f.roster.exec pid } := by
  simp only [run, List.foldl_cons, List.foldl_nil, act, known, alive, placed, and_self, if_true]

/-- A process that makes no more calls and is waited for. -/
theorem run_exit_reap (idle : f.newcomer = none) (pid : Nat) : ∃ children,
    run shellGroup f [.exit pid, .reap pid] =
      { f with roster := f.roster.reap pid, children } ∧
    ∀ other, other ≠ pid → children other = f.children other := by
  cases known : f.children pid with
  | none =>
      exact ⟨f.children, by simp only [run, List.foldl_cons, List.foldl_nil, act, known],
        fun _ _ => rfl⟩
  | some c =>
      refine ⟨Function.update f.children pid none, ?_, fun other different =>
        Function.update_of_ne different ..⟩
      simp only [run, List.foldl_cons, List.foldl_nil, act, known, Function.update_self, idle,
        and_self, if_true, Function.update_idem]

/-- A child that was started in any of the orders, without a break. -/
theorem run_schedule (order : Handshake) (idle : f.newcomer = none) :
    run shellGroup f (schedule order f.next) =
      { roster := (Group.enroll order shellGroup f.group f.next
          (f.roster.fork f.next shellGroup)).2.1
        next := f.next + 1
        group := (Group.enroll order shellGroup f.group f.next
          (f.roster.fork f.next shellGroup)).1
        children := Function.update f.children f.next (some
          { aim := f.group, joining := .placed, ended := false, signalled := false })
        newcomer := none } := by
  have forked : act shellGroup f .fork =
      { f with
        roster := f.roster.fork f.next shellGroup
        next := f.next + 1
        children := Function.update f.children f.next
          (some { aim := f.group, joining := .asking, ended := false, signalled := false })
        newcomer := some (f.next, .asking) } := by
    simp only [act, idle]
  have known : ∀ c, (Function.update f.children f.next (some c)) f.next = some c :=
    fun c => Function.update_self ..
  -- after the fork, each order is its three blocks one after the other
  have step : ∀ events, run shellGroup f (.fork :: events) =
      run shellGroup (act shellGroup f .fork) events := fun _ => rfl
  cases order with
  | joinAdoptExec =>
      obtain ⟨adopted, moved⟩ := Group.adopt_eq shellGroup f.group f.next
        (Group.join f.group f.next (f.roster.fork f.next shellGroup))
      rw [schedule, step, run_append, run_append, forked, run_joins (known _) rfl rfl,
        run_places rfl, run_exec (by rw [Function.update_idem]; exact known _) rfl rfl]
      simp only [Group.enroll, adopted, moved, Function.update_idem]
  | joinExecAdopt =>
      obtain ⟨adopted, moved⟩ := Group.adopt_eq shellGroup f.group f.next
        ((Group.join f.group f.next (f.roster.fork f.next shellGroup)).exec f.next)
      rw [schedule, step, run_append, run_append, forked, run_joins (known _) rfl rfl,
        run_exec (by rw [Function.update_idem]; exact known _) rfl rfl, run_places rfl]
      simp only [Group.enroll, adopted, moved, Function.update_idem]
  | adoptJoinExec =>
      obtain ⟨adopted, moved⟩ := Group.adopt_eq shellGroup f.group f.next
        (f.roster.fork f.next shellGroup)
      rw [schedule, step, run_append, run_append, forked, run_places rfl,
        run_joins (known _) rfl rfl,
        run_exec (by rw [Function.update_idem]; exact known _) rfl rfl]
      simp only [Group.enroll, adopted, moved, Function.update_idem]

end Family

/-! ## Calls of the shell -/

/-- A call that the shell makes in a session. -/
inductive Job.Call where
  | wire (p : Pipeline)
  | launch (order : Handshake) (stage : Stage) (c : Connection)
  | wait (handle : Handle)
  | terminate

/-- A shell, and the children that it has launched since it last ended its group. -/
abbrev Job.Life := Shell × List Nat

namespace Job

def Call.act : Life → Call → Life
  | (sh, launched), .wire p => ({ sh with machine := (PipeShell.wire p sh.machine).2 }, launched)
  | (sh, launched), .launch order stage c =>
    match (launcher order).launch stage c (sh, []) with
    | (.ok (.process handle), (sh, _)) => (sh, handle.pid :: launched)
    | (_, (sh, _)) => (sh, launched)
  | (sh, launched), .wait handle =>
    (((launcher .joinAdoptExec).wait handle (sh, [])).2.1, launched)
  | (sh, _), .terminate => (Job.terminate sh, [])

def Call.run (life : Life) (calls : List Call) : Life :=
  calls.foldl act life

/-- A stage that is no builtin becomes a child, which is enrolled, or no process is started. -/
theorem spawn_enrolls (order : Handshake) (stage : Stage) (c : Connection) (sh : Shell) :
    (∃ cause after, spawn order stage c sh = (.error cause, after) ∧
      after.session.group = sh.session.group ∧ sh.machine.KeepsProcesses after.machine) ∨
    ∃ after, spawn order stage c sh =
        (.ok { pid := sh.machine.nextPid, program := stage.name }, after) ∧
      after.machine.shellGroup = sh.machine.shellGroup ∧
      after.machine.nextPid = sh.machine.nextPid + 1 ∧
      (after.session.group, after.machine.roster) =
        (let enrolled := Group.enroll order sh.machine.shellGroup sh.session.group
          sh.machine.nextPid (sh.machine.roster.fork sh.machine.nextPid sh.machine.shellGroup)
        (enrolled.1, enrolled.2.1)) := by
  have closed : ∀ m : Machine, m.KeepsProcesses (m.closeAll c.owned) :=
    fun m => (Machine.rewired_closeAll m c.owned).toKeepsProcesses
  unfold spawn
  split
  · exact .inl ⟨_, _, rfl, rfl, closed sh.machine⟩
  · split
    · next fault machine looked =>
        obtain rfl := Machine.nextFault_snd looked
        exact .inl ⟨_, _, rfl, rfl, (Machine.rewired_nextFault looked).toKeepsProcesses.trans
          (closed _)⟩
    · next machine looked =>
        obtain rfl := Machine.nextFault_snd looked
        refine .inr ⟨_, rfl, (closed _).shellGroup, (closed _).nextPid, ?_⟩
        rw [Shell.disconnect, Machine.disconnect, (closed _).roster]
        rfl

theorem builtin_keepsProcesses (stage : Stage) (sh : Shell) :
    (runBuiltin stage sh).2.session.group = sh.session.group ∧
      sh.machine.KeepsProcesses (runBuiltin stage sh).2.machine := by
  unfold runBuiltin
  split
  · exact ⟨rfl, rfl, rfl, rfl, rfl⟩
  · next b _ =>
      obtain ⟨cwd, env, machine⟩ := b.machine_run stage.argv {} sh
      refine ⟨b.group_run {} sh stage.argv, ?_⟩
      dsimp only
      rw [machine]
      exact ⟨rfl, rfl, rfl, rfl⟩

end Job

/-! ## Ending a group -/

section Killing

variable (m : Machine)

/-- Ends the processes with these numbers. -/
theorem Machine.kill_spec (pids : List Nat) :
    let killed := pids.foldl (fun m pid =>
      if m.running.any fun process => process.pid = pid then m.conclude pid .killed else m) m
    (killed.roster = m.roster ∧ killed.nextPid = m.nextPid ∧ killed.shellGroup = m.shellGroup) ∧
      killed.running ⊆ m.running ∧ ∀ process ∈ killed.running, process.pid ∉ pids := by
  induction pids generalizing m with
  | nil => exact ⟨⟨rfl, rfl, rfl⟩, fun _ member => member, fun _ _ => List.not_mem_nil⟩
  | cons pid pids ih =>
      rw [List.foldl_cons]
      obtain ⟨kept, fewer, others⟩ := ih
        (if m.running.any fun process => process.pid = pid then m.conclude pid .killed else m)
      generalize pids.foldl _ _ = killed at kept fewer others
      by_cases here : (m.running.any fun process => process.pid = pid) = true
      · rw [if_pos here] at kept fewer
        have left : ∀ process ∈ killed.running, process ∈ m.running ∧ process.pid ≠ pid := by
          intro process member
          simpa [conclude] using fewer member
        refine ⟨kept, fun process member => (left process member).1, fun process member => ?_⟩
        rw [List.mem_cons, not_or]
        exact ⟨(left process member).2, others process member⟩
      · rw [if_neg here] at kept fewer
        refine ⟨kept, fewer, fun process member => ?_⟩
        rw [List.mem_cons, not_or]
        refine ⟨fun same => here ?_, others process member⟩
        rw [List.any_eq_true]
        exact ⟨process, fewer member, decide_eq_true same⟩

theorem Machine.killGroup_kept (group : Nat) :
    (m.killGroup group).roster = m.roster ∧ (m.killGroup group).nextPid = m.nextPid ∧
      (m.killGroup group).shellGroup = m.shellGroup :=
  (m.kill_spec (m.roster.pidsOf group)).1

theorem Machine.ends_of_mem_pidsOf {group pid : Nat} (member : pid ∈ m.roster.pidsOf group) :
    ∀ process ∈ (m.killGroup group).running, process.pid ≠ pid := by
  rintro process running rfl
  exact (m.kill_spec (m.roster.pidsOf group)).2.2 process running member

end Killing

/-! ## Showing a family -/

namespace Family

/-- The shell is between two calls, and what it and the kernel know of its processes is this. -/
structure Shows (shellGroup : Nat) (f : Family) (life : Job.Life) : Prop where
  shell : life.1.machine.shellGroup = shellGroup
  roster : life.1.machine.roster = f.roster
  next : life.1.machine.nextPid = f.next
  group : life.1.session.group = f.group
  idle : f.newcomer = none
  older : ∀ pid ∈ life.2, pid < f.next
  children : ∀ pid ∈ life.2, f.roster.member? pid ≠ none →
    ∃ c, f.children pid = some c ∧ c.signalled = false

namespace Shows

variable {shellGroup : Nat} {f : Family} {sh sh' : Shell} {launched : List Nat}

/-- Of the machine only this is shown. -/
theorem congr (shown : Shows shellGroup f (sh, launched))
    (shell : sh'.machine.shellGroup = sh.machine.shellGroup)
    (roster : sh'.machine.roster = sh.machine.roster)
    (next : sh'.machine.nextPid = sh.machine.nextPid)
    (group : sh'.session.group = sh.session.group) : Shows shellGroup f (sh', launched) where
  shell := shell.trans shown.shell
  roster := roster.trans shown.roster
  next := next.trans shown.next
  group := group.trans shown.group
  idle := shown.idle
  older := shown.older
  children := shown.children

theorem keeps (shown : Shows shellGroup f (sh, launched))
    (group : sh'.session.group = sh.session.group)
    (keeps : sh.machine.KeepsProcesses sh'.machine) : Shows shellGroup f (sh', launched) :=
  shown.congr keeps.shellGroup keeps.roster keeps.nextPid group

/-- A process that is no child of the shell is born. -/
theorem born (shown : Shows shellGroup f (sh, launched)) (parent : Nat) :
    Shows shellGroup (Family.act shellGroup f (.bear parent)) ({ sh with
      machine := { sh.machine with
        roster := sh.machine.roster.fork sh.machine.nextPid
          ((sh.machine.roster.groupOf? parent).getD shellGroup)
        nextPid := sh.machine.nextPid + 1 } }, launched) where
  shell := shown.shell
  roster := by
    show sh.machine.roster.fork sh.machine.nextPid _ = f.roster.fork f.next _
    rw [← shown.roster, ← shown.next]
  next := congrArg (· + 1) shown.next
  group := shown.group
  idle := shown.idle
  older pid member := Nat.lt_succ_of_lt (shown.older pid member)
  children pid member present := by
    have other := Nat.ne_of_lt (shown.older pid member)
    refine shown.children pid member ?_
    change (Roster.fork _ _ _).member? pid ≠ none at present
    rwa [Roster.member?_fork, if_neg other, Option.or_none] at present

/-- A process is waited for, by the shell or by somebody else. -/
theorem reaped (shown : Shows shellGroup f (sh, launched)) (pid : Nat) :
    Shows shellGroup (Family.run shellGroup f [.exit pid, .reap pid]) ({ sh with
      machine := { sh.machine with roster := sh.machine.roster.reap pid } }, launched) := by
  obtain ⟨children, result, others⟩ := @run_exit_reap shellGroup f shown.idle pid
  rw [result]
  refine ⟨shown.shell, congrArg (Roster.reap · pid) shown.roster, shown.next, shown.group,
    shown.idle, shown.older, fun other member present => ?_⟩
  dsimp only at present
  rw [Roster.member?_reap] at present
  split at present
  · exact absurd rfl present
  · next different =>
      obtain ⟨c, known, free⟩ := shown.children other member present
      exact ⟨c, (others other different).trans known, free⟩

/-- What processes do in the meantime. -/
theorem evolves (shown : Shows shellGroup f (sh, launched)) {roster : Roster} {nextPid : Nat}
    (evolves : Roster.Evolves shellGroup sh.machine.roster sh.machine.nextPid roster nextPid) :
    ∃ events, Shows shellGroup (Family.run shellGroup f events)
      ({ sh with machine := { sh.machine with roster, nextPid } }, launched) := by
  induction evolves with
  | refl => exact ⟨[], shown⟩
  | born _ parent ih =>
      obtain ⟨events, shown'⟩ := ih
      refine ⟨events ++ [.bear parent], ?_⟩
      rw [run_append]
      exact shown'.born parent
  | reaped _ pid ih =>
      obtain ⟨events, shown'⟩ := ih
      refine ⟨events ++ [.exit pid, .reap pid], ?_⟩
      rw [run_append]
      exact shown'.reaped pid

theorem spares (shown : Shows shellGroup f (sh, launched))
    (group : sh'.session.group = sh.session.group) (spares : sh.machine.Spares sh'.machine) :
    ∃ events, Shows shellGroup (Family.run shellGroup f events) (sh', launched) := by
  obtain ⟨events, shown'⟩ := shown.evolves (shown.shell ▸ spares.roster)
  exact ⟨events, shown'.congr spares.shellGroup rfl rfl group⟩

theorem launch (shown : Shows shellGroup f (sh, launched)) (order : Handshake) (stage : Stage)
    (c : Connection) :
    ∃ events, Event.terminate ∉ events ∧ Shows shellGroup (run shellGroup f events)
      (Job.Call.act (sh, launched) (.launch order stage c)) := by
  simp only [Job.Call.act, Job.launcher]
  by_cases builtin : stage.isBuiltin = true
  · have closed := (Machine.rewired_closeAll sh.machine c.owned).toKeepsProcesses
    obtain ⟨group, kept⟩ := Job.builtin_keepsProcesses stage (sh.disconnect c)
    rw [if_pos builtin]
    refine ⟨[], List.not_mem_nil, ?_⟩
    cases (Job.runBuiltin stage (sh.disconnect c)).1 <;>
      exact shown.keeps group (closed.trans kept)
  · rw [if_neg builtin]
    rcases Job.spawn_enrolls order stage c sh with
      ⟨cause, after, spawned, group, kept⟩ | ⟨after, spawned, shell, next, enrolled⟩
    · rw [spawned]
      exact ⟨[], List.not_mem_nil, shown.keeps group kept⟩
    · rw [spawned]
      obtain ⟨group, roster⟩ := Prod.mk.inj enrolled
      rw [shown.shell, shown.roster, shown.next, shown.group] at group roster
      refine ⟨schedule order f.next, by cases order <;> simp [schedule], ?_⟩
      rw [run_schedule order shown.idle]
      refine ⟨shell.trans shown.shell, roster, next.trans (congrArg (· + 1) shown.next), group, rfl,
        ?_, ?_⟩
      · intro pid member
        rcases List.mem_cons.mp member with rfl | member
        · rw [shown.next]
          exact Nat.lt_succ_self _
        · exact Nat.lt_succ_of_lt (shown.older pid member)
      · intro pid member present
        rcases List.mem_cons.mp member with rfl | member
        · rw [shown.next]
          exact ⟨_, Function.update_self .., rfl⟩
        · have other := Nat.ne_of_lt (shown.older pid member)
          dsimp only at present
          rw [Group.member?_enroll _ _ _ _ _ other, Roster.member?_fork, if_neg other,
            Option.or_none] at present
          obtain ⟨c, known, free⟩ := shown.children pid member present
          exact ⟨c, (Function.update_of_ne other ..).trans known, free⟩

theorem wait (shown : Shows shellGroup f (sh, launched)) (handle : Handle) :
    ∃ events, Shows shellGroup (run shellGroup f events)
      (Job.Call.act (sh, launched) (.wait handle)) := by
  have spared := Machine.spares_wait sh.machine handle.pid
  simp only [Job.Call.act, Job.launcher]
  rcases outcome : sh.machine.wait handle.pid with ⟨cause | status, m⟩
  · rw [outcome] at spared
    exact shown.spares rfl spared
  · rw [outcome] at spared
    dsimp only
    split <;> exact shown.spares rfl spared

theorem terminate (shown : Shows shellGroup f (sh, launched)) :
    Shows shellGroup (Family.act shellGroup f .terminate) (Job.terminate sh, []) := by
  unfold Job.terminate
  simp only [Family.act, shown.idle]
  cases grouped : f.group with
  | none =>
      rw [shown.group.trans grouped]
      exact ⟨shown.shell, shown.roster, shown.next, shown.group, shown.idle, by simp, by simp⟩
  | some group =>
      rw [shown.group.trans grouped]
      obtain ⟨roster, next, shell⟩ := sh.machine.killGroup_kept group
      exact ⟨shell.trans shown.shell, roster.trans shown.roster, next.trans shown.next, rfl, rfl,
        by simp, by simp⟩

/-- Whatever the shell calls, it goes on to show a run. -/
theorem act {life : Job.Life} (shown : Shows shellGroup f life) (call : Job.Call) :
    ∃ events, Shows shellGroup (run shellGroup f events) (call.act life) := by
  obtain ⟨sh, launched⟩ := life
  cases call with
  | wire p =>
      have rewired : sh.machine.Rewired (wire p sh.machine).2 := Wiring.rewired_wire rfl
      exact ⟨[], shown.keeps rfl rewired.toKeepsProcesses⟩
  | launch order stage c =>
      obtain ⟨events, -, shown'⟩ := shown.launch order stage c
      exact ⟨events, shown'⟩
  | wait handle => exact shown.wait handle
  | terminate => exact ⟨[.terminate], shown.terminate⟩

theorem run {life : Job.Life} (shown : Shows shellGroup f life) (calls : List Job.Call) :
    ∃ events, Shows shellGroup (run shellGroup f events) (Job.Call.run life calls) := by
  induction calls generalizing f life with
  | nil => exact ⟨[], shown⟩
  | cons call calls ih =>
      obtain ⟨events, shown'⟩ := shown.act call
      obtain ⟨events', shown''⟩ := ih shown'
      exact ⟨events ++ events', run_append f events events' ▸ shown''⟩

end Shows

end Family

end PipeShell
