import PipeShell.Proofs.Job.Calls
import PipeShell.Proofs.Supervisor.Steps

/-!
# One group for all children

When a launch is over, the child is in the session's group, which is not that of the shell.  The
session goes over to another group only when nobody is left in the one it had.  So a child that was
not waited for is where one signal reaches it (`one_signal_reaches_every_child`), in whatever order
the calls of shell, children and other processes come.
-/

set_option autoImplicit false

namespace PipeShell

/-! ## Call by call -/

namespace Family

/-- What one group for all children comes to, at a moment of a session. -/
structure OneGroup (shellGroup : Nat) (f : Family) : Prop where
  /-- The last call of a launch leaves the child in the session's group. -/
  launched : ∀ pid, f.newcomer = some (pid, .looking) →
    (act shellGroup f .place).newcomer = none ∧ ∃ group,
      (act shellGroup f .place).group = some group ∧
      (act shellGroup f .place).roster.groupOf? pid = some group ∧ group ≠ shellGroup
  /-- The session leaves its group when nobody is in it, or when it ends the group. -/
  changed : ∀ event old, f.group = some old → (act shellGroup f event).group ≠ some old →
    event = .place ∧ f.roster.hasGroup old = false ∨
      event = .terminate ∧ (act shellGroup f event).group = none
  /-- A launched child is among those whom a signal to the group reaches. -/
  reached : ∀ pid c, f.children pid = some c → (∀ todo, f.newcomer ≠ some (pid, todo)) →
    c.signalled = false →
    ∃ group, f.group = some group ∧ group ≠ shellGroup ∧ f.roster.groupOf? pid = some group ∧
      pid ∈ f.roster.pidsOf group

variable {shellGroup : Nat} {f : Family}

theorem Sound.oneGroup (sound : Sound shellGroup f) : OneGroup shellGroup f where
  launched pid new := by
    obtain ⟨c, group, -, result, stands, -⟩ := sound.launch new
    have looks : act shellGroup f .place = { f with group := some group, newcomer := none } := by
      simp only [act, new, result]
    rw [looks]
    exact ⟨rfl, group, rfl, stands.here, stands.apart⟩
  changed event old grouped left := by
    rcases group_act sound grouped event with kept | ⟨ends, after⟩ | ⟨places, gone⟩
    · exact absurd kept left
    · exact .inr ⟨ends, after⟩
    · exact .inl ⟨places, gone.empty⟩
  reached pid c known launched free := by
    obtain ⟨group, stands, together⟩ := sound.launched pid c known launched
    exact ⟨group, together free, stands.apart, stands.here, Roster.mem_pidsOf stands.here⟩

end Family

/-! ## In a shell -/

namespace Job

/-- The same for a shell between two of its calls. -/
structure OneGroup (life : Life) : Prop where
  spawned : ∀ order stage c handle after, spawn order stage c life.1 = (.ok handle, after) →
    ∃ group, after.session.group = some group ∧
      after.machine.roster.groupOf? handle.pid = some group ∧ group ≠ after.machine.shellGroup
  changed : ∀ (call : Call) old, life.1.session.group = some old →
    (call.act life).1.session.group ≠ some old →
      (∃ order stage c, call = .launch order stage c) ∧
        (call.act life).1.machine.roster.hasGroup old = false ∨
      call = .terminate ∧ (call.act life).1.session.group = none
  /-- Ending the session's group ends all children that were launched and not waited for. -/
  reached : ∀ pid ∈ life.2, life.1.machine.roster.member? pid ≠ none →
    ∃ group, life.1.session.group = some group ∧ group ≠ life.1.machine.shellGroup ∧
      life.1.machine.roster.groupOf? pid = some group ∧
      pid ∈ life.1.machine.roster.pidsOf group ∧
      ∀ process ∈ (terminate life.1).machine.running, process.pid ≠ pid

section Shown

variable {shellGroup : Nat} {f : Family} {life : Life}

theorem spawned_of_shows (sound : f.Sound shellGroup) (shown : f.Shows shellGroup life)
    {order : Handshake} {stage : Stage} {c : Connection} {handle : Handle} {after : Shell}
    (spawned : spawn order stage c life.1 = (.ok handle, after)) :
    ∃ group, after.session.group = some group ∧
      after.machine.roster.groupOf? handle.pid = some group ∧
        group ≠ after.machine.shellGroup := by
  obtain ⟨sh, ended⟩ := life
  rcases spawn_enrolls order stage c sh with
    ⟨cause, after', failed, -⟩ | ⟨after', enrolled, shell, -, result⟩
  · rw [spawned] at failed
    cases failed
  · obtain ⟨rfl, rfl⟩ := Prod.mk.inj (spawned.symm.trans enrolled) |>.imp Except.ok.inj id
    obtain ⟨group, roster⟩ := Prod.mk.inj result
    rw [shown.shell, shown.roster, shown.next, shown.group] at group roster
    -- the launch is a schedule of the family, which keeps it sound
    have sound' := Family.sound_run sound (Family.schedule order f.next)
    rw [Family.run_schedule order shown.idle] at sound'
    obtain ⟨target, stands, together⟩ :=
      sound'.launched f.next _ (Function.update_self ..) (by rintro _ ⟨⟩)
    refine ⟨target, group.trans (together rfl), ?_, ?_⟩
    · rw [roster, shown.next]
      exact stands.here
    · rw [shell, shown.shell]
      exact stands.apart

theorem oneGroup_of_shows (sound : f.Sound shellGroup) (shown : f.Shows shellGroup life) :
    OneGroup life where
  spawned order stage c handle after spawned := spawned_of_shows sound shown spawned
  changed call old grouped left := by
    obtain ⟨sh, ended⟩ := life
    cases call with
    | wire p => exact absurd grouped left
    | launch order stage c =>
        obtain ⟨events, never, shown'⟩ := shown.launch order stage c
        rcases Family.group_run sound (shown.group.symm.trans grouped) never with kept | gone
        · exact absurd (shown'.group.trans kept) left
        · exact .inl ⟨⟨order, stage, c, rfl⟩, by rw [shown'.roster, gone.empty]⟩
    | wait handle =>
        refine absurd ?_ left
        simp only [Call.act, launcher]
        repeat' split
        all_goals exact grouped
    | terminate =>
        refine .inr ⟨rfl, ?_⟩
        simp only [Call.act, terminate, show sh.session.group = some old from grouped]
  reached pid member present := by
    obtain ⟨sh, ended⟩ := life
    rw [shown.roster] at present
    obtain ⟨c, known, free⟩ := shown.children pid member present
    obtain ⟨group, stands, together⟩ := sound.launched pid c known (by simp [shown.idle])
    have grouped : sh.session.group = some group := shown.group.trans (together free)
    have listed : pid ∈ sh.machine.roster.pidsOf group := by
      rw [shown.roster]
      exact Roster.mem_pidsOf stands.here
    refine ⟨group, grouped, ?_, ?_, listed, ?_⟩
    · rw [shown.shell]
      exact stands.apart
    · rw [shown.roster]
      exact stands.here
    · simp only [terminate, grouped]
      exact sh.machine.ends_of_mem_pidsOf listed

end Shown

end Job

/-- However the calls of the shell, of its children and of all other processes follow each other,
one signal to the session's group reaches every child that was launched and not waited for.  So it
does whatever a shell calls. -/
theorem one_signal_reaches_every_child (sh : Shell) (unplaced : sh.session.group = none)
    (fresh : ∀ pid, sh.machine.nextPid ≤ pid → sh.machine.roster.member? pid = none)
    (shell : sh.machine.shellGroup < sh.machine.nextPid) :
    (∀ events, Family.OneGroup sh.machine.shellGroup
      (Family.run sh.machine.shellGroup (.start sh.machine.roster sh.machine.nextPid) events)) ∧
    ∀ calls, Job.OneGroup (Job.Call.run (sh, []) calls) := by
  have sound := Family.sound_start fresh shell
  have shown : Family.Shows sh.machine.shellGroup
      (.start sh.machine.roster sh.machine.nextPid) (sh, []) :=
    ⟨rfl, rfl, rfl, unplaced, rfl, by simp, by simp⟩
  constructor
  · exact fun events => (Family.sound_run sound events).oneGroup
  · intro calls
    obtain ⟨events, shown'⟩ := shown.run calls
    exact Job.oneGroup_of_shows (Family.sound_run sound events) shown'

/-- The first child leaves a process behind, which keeps the group for the second one.  The third
child finds nobody in it. -/
def Family.orphaned : List Family.Event :=
  schedule .adoptJoinExec 100 ++ [.bear 100, .exit 100, .reap 100] ++
    schedule .joinExecAdopt 102 ++ [.reap 101, .exit 102, .reap 102] ++
      schedule .joinAdoptExec 103

/-- Two programs, named by paths. -/
def Job.twoLaunches : List Job.Call :=
  ["./a", "./b"].map fun name => .launch .joinAdoptExec
    { name, argv := [name], isBuiltin := false, input := .stdio, output := .stdio }
    { input := .stdin, output := .stdout }

/-- The third child of `orphaned` begins a group of its own; two children that are there together
are in one group. -/
theorem one_signal_reaches_third_child :
    bareShell.session.group = none ∧
    (∀ pid, bareShell.machine.nextPid ≤ pid → bareShell.machine.roster.member? pid = none) ∧
    bareShell.machine.shellGroup < bareShell.machine.nextPid ∧
    (let f := Family.run bareShell.machine.shellGroup
      (.start bareShell.machine.roster bareShell.machine.nextPid) Family.orphaned
    f.group = some 103 ∧ Family.OneGroup bareShell.machine.shellGroup f) ∧
    let life := Job.Call.run (bareShell, []) Job.twoLaunches
    life.1.session.group = some 100 ∧ life.2 = [101, 100] ∧ Job.OneGroup life := by
  have fresh : ∀ pid, bareShell.machine.nextPid ≤ pid →
      bareShell.machine.roster.member? pid = none := fun _ _ => rfl
  obtain ⟨events, calls⟩ := one_signal_reaches_every_child bareShell rfl fresh (by decide)
  exact ⟨rfl, fresh, by decide, ⟨by decide +kernel, events _⟩, by decide +kernel,
    by decide +kernel, calls _⟩

end PipeShell
