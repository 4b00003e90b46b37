import PipeShell.Proofs.Builtin
import PipeShell.Proofs.Interpreter.Spares
import PipeShell.Proofs.Job.Child
import PipeShell.Proofs.Supervisor.Law
import PipeShell.Proofs.Supervisor.Steps
import PipeShell.Rehearsal

/-!
# Waiting with nothing open

A shell that waits for a process while it still holds the writing end of the process's input waits
for ever.  So the descriptors that wiring opened have to be gone from the shell whenever it waits.
They are, with every launcher that gives up the connection it is handed: at every moment the shell
has descriptors on the files of the pipeline at the numbers of pending connections only
(`Confined`), and a supervisor halts, which closes these, before it waits
(`waits_with_nothing_open`).
-/

set_option autoImplicit false

namespace PipeShell

variable {σ : Type}

/-! ## Giving up descriptors -/

/-- Of the files in question the shell has only descriptors that it had before, and none of those at
the numbers that were to be given up. -/
structure Machine.GivesUp (files : OpenFile → Prop) (numbers : List Nat) (m m' : Machine) :
    Prop where
  known : ∀ file, files file → m'.Knows file
  kept : ∀ number d, m'.table.get? number = some d → files d.file →
    number ∉ numbers ∧ m.table.get? number = some d

theorem Machine.givesUp_of_closed {files : OpenFile → Prop} {numbers : List Nat} {m m' : Machine}
    (known : ∀ file, files file → m.Knows file) (grows : m.Grows m')
    (closed : ∀ number, m'.table.get? number =
      if number ∈ numbers then none else m.table.get? number) : m.GivesUp files numbers m' where
  known file inQuestion := grows.knows (known file inQuestion)
  kept := by
    intro number d here _
    rw [closed] at here
    split at here
    · cases here
    · next kept => exact ⟨kept, here⟩

/-- Whatever comes of a launch, the launcher closes the connection that it was given.  In no call it
gets hold of one of these files in another way. -/
structure Launcher.Releases (l : Launcher σ) (files : OpenFile → Prop) : Prop where
  launch : ∀ stage c (sh : Shell) own, (∀ file, files file → sh.machine.Knows file) →
    sh.machine.GivesUp files c.owned (l.launch stage c (sh, own)).2.1.machine
  wait : ∀ handle (sh : Shell) own, (∀ file, files file → sh.machine.Knows file) →
    sh.machine.GivesUp files [] (l.wait handle (sh, own)).2.1.machine

/-! ## Launchers that give up their connections -/

section Launchers

variable (stage : Stage) (c : Connection) (sh : Shell)

theorem Machine.givesUp_of_keepsTable {files : OpenFile → Prop} {numbers : List Nat}
    {m m' : Machine} (known : ∀ file, files file → m.Knows file)
    (keeps : KeepsTable (m.closeAll numbers) m') : m.GivesUp files numbers m' := by
  have grows := (rewired_closeAll m numbers).toGrows.trans keeps.toGrows
  refine givesUp_of_closed known grows fun number => ?_
  rw [keeps.table, get?_closeAll]

theorem Shell.SameMachine.keepsTable {sh sh' : Shell} (same : sh.SameMachine sh') :
    sh.machine.KeepsTable sh'.machine := by
  obtain ⟨cwd, env, machine⟩ := same
  rw [machine]
  exact ⟨⟨Nat.le_refl _, Nat.le_refl _⟩, rfl⟩

theorem Rehearsal.keepsTable_launch (r : Rehearsal) :
    (sh.disconnect c).machine.KeepsTable (launcher.launch stage c (sh, r)).2.1.machine := by
  simp only [launcher]
  split
  · exact .refl _
  · split
    · unfold runBuiltin
      split
      · exact .refl _
      · exact (Builtin.machine_run ..).keepsTable
    · exact .refl _

theorem Rehearsal.releases (files : OpenFile → Prop) : launcher.Releases files where
  launch stage c sh r known := Machine.givesUp_of_keepsTable known (keepsTable_launch stage c sh r)
  wait _ _ _ known := Machine.givesUp_of_keepsTable known (.refl _)

theorem Job.keepsTable_runBuiltin : sh.machine.KeepsTable (runBuiltin stage sh).2.machine := by
  unfold runBuiltin
  split
  · exact .refl _
  · next b _ =>
      exact (Builtin.machine_run b ..).keepsTable.trans ⟨⟨Nat.le_refl _, Nat.le_refl _⟩, rfl⟩

/-- The shell closes the connection of each child, and what processes do leaves its descriptors
alone. -/
theorem Job.releases (order : Handshake) (files : OpenFile → Prop) :
    (launcher order).Releases files where
  launch := by
    intro stage c sh ended known
    simp only [launcher]
    split
    · exact Machine.givesUp_of_keepsTable known (keepsTable_runBuiltin stage (sh.disconnect c))
    · obtain ⟨_, after, spawned, grows, closed, -⟩ := spawn_cases order stage c sh
      rw [spawned]
      exact Machine.givesUp_of_closed known grows closed
  wait := by
    intro handle sh ended known
    have given : sh.machine.GivesUp files [] (sh.machine.wait handle.pid).2 :=
      Machine.givesUp_of_keepsTable known (Machine.spares_wait sh.machine handle.pid).toKeepsTable
    simp only [launcher]
    split
    · next outcome =>
        rw [outcome] at given
        split <;> exact given
    · next outcome =>
        rw [outcome] at given
        exact given

end Launchers

/-! ## Descriptors in their places -/

/-- The descriptors of the shell on files in question are at the numbers listed. -/
structure Machine.Confined (files : OpenFile → Prop) (numbers : List Nat) (m : Machine) : Prop where
  known : ∀ file, files file → m.Knows file
  listed : ∀ number d, m.table.get? number = some d → files d.file → number ∈ numbers

/-- The shell has no descriptor on any of the files. -/
def Machine.Clear (files : OpenFile → Prop) (m : Machine) : Prop :=
  ∀ file, files file → m.table.holds file = false

namespace Machine.Confined

variable {files : OpenFile → Prop} {given numbers : List Nat} {m m' : Machine}

theorem givesUp (confined : Confined files (given ++ numbers) m)
    (gives : m.GivesUp files given m') : Confined files numbers m' where
  known := gives.known
  listed := by
    intro number d here inQuestion
    obtain ⟨kept, before⟩ := gives.kept number d here inQuestion
    exact (List.mem_append.mp (confined.listed number d before inQuestion)).resolve_left kept

theorem closeAll (confined : Confined files (given ++ numbers) m) :
    Confined files numbers (m.closeAll given) :=
  confined.givesUp
    (givesUp_of_closed confined.known (rewired_closeAll m given).toGrows (get?_closeAll m given))

theorem clear (confined : Confined files [] m) : m.Clear files := by
  intro file inQuestion
  rw [← Bool.not_eq_true]
  intro held
  obtain ⟨number, d, here, rfl⟩ := DescriptorTable.holds_eq_true_iff.mp held
  exact List.not_mem_nil (confined.listed number d here inQuestion)

end Machine.Confined

/-! ## The files of a pipeline -/

/-- The files that wiring opens, whether or not it succeeds: the machine knows them afterwards, and
before it did not know them and the shell did not hold them. -/
def wiredFiles (p : Pipeline) (m : Machine) (file : OpenFile) : Prop :=
  m.Opened (wire p m).2 file ∧ m.table.holds file = false

/-- What the connections of a pipeline own are descriptors on its files. -/
theorem wiredFiles_of_owned {p : Pipeline} {m m' : Machine} {connections : List Connection}
    (consistent : m.Consistent) (outcome : wire p m = (.ok connections, m')) {number : Nat}
    (member : number ∈ Wiring.owned connections) :
    ∃ d, m'.table.get? number = some d ∧ wiredFiles p m d.file := by
  have gains := Wiring.gains_of_wire outcome
  obtain ⟨file, here⟩ := gains.here number member
  refine ⟨⟨file, true⟩, here, ?_⟩
  have opened : m.Opened m' file := by
    refine ((Wiring.rewired_wire outcome).fresh number _ here).resolve_left fun before => ?_
    rw [gains.free number member] at before
    cases before
  rw [wiredFiles, outcome]
  refine ⟨opened, ?_⟩
  have unheld := consistent.isHeld_of_opened opened
  rw [Machine.isHeld, Bool.or_eq_false_iff] at unheld
  exact unheld.1

theorem confined_of_gains {p : Pipeline} {m m' : Machine} {numbers : List Nat}
    (gains : m.Gains m' numbers) (outcome : (wire p m).2 = m') :
    m'.Confined (wiredFiles p m) numbers where
  known file opened := outcome ▸ opened.1.2
  listed := by
    intro number d here opened
    by_contra absent
    rw [gains.rest number absent] at here
    have held := DescriptorTable.holds_of_get? here
    rw [opened.2] at held
    cases held

namespace Supervisor

open Launcher (Event)

variable {p : Pipeline} {m : Machine} {s : Supervisor (σ × List Event)} {l : Launcher σ}

/-! ## What every request preserves -/

/-- How a supervisor that found the machine `m` holds the descriptors of its pipeline. -/
structure Custody (p : Pipeline) (m : Machine) (s : Supervisor (σ × List Event)) : Prop where
  untouched : s.wired = false → s.world.1.machine = m ∧ s.pending = [] ∧ s.launched = []
  /-- The connections of the stages that are left, in their order. -/
  held : s.wired = true → s.halted = false → ∃ connections m',
    wire p m = (.ok connections, m') ∧ s.pending = connections.drop s.next
  confined : s.wired = true →
    s.world.1.machine.Confined (wiredFiles p m) (Wiring.owned s.pending)
  waited : ∀ sh handle result, .wait sh handle result ∈ s.log →
    sh.machine.Clear (wiredFiles p m)

theorem custody_start (sh : Shell) (own : σ) (p : Pipeline) :
    Custody p sh.machine (start (sh, own, []) p) where
  untouched _ := ⟨rfl, rfl, rfl⟩
  held wired := by cases wired
  confined wired := by cases wired
  waited := by simp [start, log]

/-! ### Launching -/

theorem custody_halt (wired : s.wired = true)
    (confined : s.world.1.machine.Confined (wiredFiles p m) (Wiring.owned s.pending))
    (waited : ∀ sh handle result, .wait sh handle result ∈ s.log →
      sh.machine.Clear (wiredFiles p m)) : Custody p m s.halt where
  untouched unwired := by
    rw [halt, wired] at unwired
    cases unwired
  held _ running := by cases running
  confined _ := by
    rw [← List.append_nil (Wiring.owned s.pending)] at confined
    rw [halt, Shell.disconnectAll_eq]
    exact confined.closeAll
  waited := waited

theorem custody_refusal (custody : Custody p m s) (unwired : s.wired = false)
    {cause : ResourceError} {machine : Machine} (outcome : wire p m = (.error cause, machine)) :
    Custody p m
      { s with wired := true, world := ({ s.world.1 with machine }, s.world.2) }.halt := by
  have settled := Wiring.settled_wire p m
  rw [outcome] at settled
  apply custody_halt rfl
  -- the failed wiring has closed again what it opened, and there was no connection before
  · rw [(custody.untouched unwired).2.1]
    exact confined_of_gains settled (congrArg Prod.snd outcome)
  · exact custody.waited

theorem custody_wire (custody : Custody p m s) (first : s.next = 0)
    {connections : List Connection} {machine : Machine}
    (outcome : wire p m = (.ok connections, machine)) :
    Custody p m { s with
      wired := true
      pending := connections
      world := ({ s.world.1 with machine }, s.world.2) } where
  untouched unwired := by cases unwired
  held _ _ := ⟨connections, machine, outcome, by rw [first, List.drop_zero]⟩
  confined _ := confined_of_gains (Wiring.gains_of_wire outcome) (congrArg Prod.snd outcome)
  waited := custody.waited

/-- A launch gives up its connection, and what is left is what was left without it. -/
theorem custody_launch (releases : l.Releases (wiredFiles p m)) (custody : Custody p m s)
    (wired : s.wired = true) (running : s.halted = false) {stage : Stage} {c : Connection}
    {pending : List Connection} (shape : s.pending = c :: pending) :
    Custody p m (launch l.recording stage c { s with pending }).2 := by
  have confined := custody.confined wired
  rw [shape, Wiring.owned_cons] at confined
  have after := confined.givesUp (releases.launch stage c s.world.1 s.world.2.1 confined.known)
  have recorded := Launcher.recording_launch l stage c s.world.1 s.world.2.1 s.log
  have waited : ∀ sh handle result, .wait sh handle result ∈ s.log ++
      [.launch s.world.1 stage c (l.launch stage c (s.world.1, s.world.2.1)).1] →
        sh.machine.Clear (wiredFiles p m) := by
    intro sh handle result member
    rcases List.mem_append.mp member with member | member
    · exact custody.waited sh handle result member
    · simp at member
  rcases outcome : (l.launch stage c (s.world.1, s.world.2.1)).1 with cause | launched
  · rw [outcome] at recorded waited
    rw [launch_of_error (s := { s with pending }) recorded]
    exact custody_halt wired after waited
  · rw [outcome] at recorded waited
    rw [launch_of_ok (s := { s with pending }) recorded]
    obtain ⟨connections, m', connected, rest⟩ := custody.held wired running
    refine ⟨fun unwired => ?_, fun _ _ => ⟨connections, m', connected, ?_⟩, fun _ => after, waited⟩
    · rw [wired] at unwired
      cases unwired
    · rw [← List.tail_drop, ← rest, shape, List.tail_cons]

theorem sound_of_wire (sound : Sound p s) (running : s.halted = false) (unwired : s.wired = false)
    {connections : List Connection} {machine : Machine}
    (outcome : wire s.pipeline s.world.1.machine = (.ok connections, machine)) :
    Sound p { s with
      wired := true
      pending := connections
      world := ({ s.world.1 with machine }, s.world.2) } := by
  have connected := connect_of_ok unwired outcome
  rcases connect_of_sound sound running with ⟨cause, t, failed, -⟩ | ⟨t, opened, -, -, -, -, sound'⟩
  · rw [connected] at failed
    cases failed
  · rw [connected] at opened
    cases opened
    exact sound'

theorem custody_execNext_of_wired (releases : l.Releases (wiredFiles p m)) (sound : Sound p s)
    (custody : Custody p m s) (left : s.hasNext = true) (wired : s.wired = true) :
    Custody p m (execNext l.recording s).2 := by
  obtain ⟨c, pending, stage, shape, here⟩ := pending_of_sound sound left wired
  rw [execNext_of_pending left wired shape here]
  exact custody_launch releases custody wired (hasNext_eq_true_iff.mp left).1 shape

theorem custody_execNext (releases : l.Releases (wiredFiles p m))
    (sound : Sound p s) (custody : Custody p m s) :
    Custody p m (execNext l.recording s).2 := by
  cases left : s.hasNext with
  | false =>
      rw [execNext_of_not_hasNext l.recording left]
      exact custody
  | true =>
      cases wired : s.wired with
      | true => exact custody_execNext_of_wired releases sound custody left wired
      | false =>
          -- the machine is still the one that the supervisor was started on
          obtain ⟨same, -, -⟩ := custody.untouched wired
          have found : wire s.pipeline s.world.1.machine = wire p m := by
            rw [sound.pipeline, same]
          rcases outcome : wire p m with ⟨cause | connections, machine⟩
          · rw [execNext_of_refusal left wired (found.trans outcome)]
            exact custody_refusal custody wired outcome
          · have running := (hasNext_eq_true_iff.mp left).1
            rw [execNext_of_wire left wired (found.trans outcome)]
            exact custody_execNext_of_wired releases
              (sound_of_wire sound running wired (found.trans outcome))
              (custody_wire custody (sound.unwired wired) outcome) left rfl

/-! ### Finishing -/

/-- What waiting keeps true of the machine is true whenever a process is waited for. -/
theorem foldl_reap_of_stable {holds : Machine → Prop}
    (stable : ∀ handle (sh : Shell) own, holds sh.machine →
      holds (l.wait handle (sh, own)).2.1.machine)
    (handles : List Handle) (s : Supervisor (σ × List Event)) (first : holds s.world.1.machine) :
    holds (handles.foldl (reap l.recording) s).world.1.machine ∧
      ∀ sh handle result, .wait sh handle result ∈ (handles.foldl (reap l.recording) s).log →
        .wait sh handle result ∈ s.log ∨ holds sh.machine := by
  induction handles generalizing s with
  | nil => exact ⟨first, fun sh handle result member => Or.inl member⟩
  | cons waited handles ih =>
      have world := world_reap l.recording s waited
      have machine : (reap l.recording s waited).world.1.machine =
          (l.wait waited (s.world.1, s.world.2.1)).2.1.machine := by
        rw [world]
        exact machine_await l.recording s.world waited
      have next := stable waited s.world.1 s.world.2.1 first
      rw [← machine] at next
      obtain ⟨last, earlier⟩ := ih (reap l.recording s waited) next
      refine ⟨last, fun sh handle result member => ?_⟩
      rcases earlier sh handle result member with member | held
      · obtain ⟨after, own, answer, reaped⟩ := reap_recording l s waited
        rw [reaped] at member
        rcases List.mem_append.mp member with member | member
        · exact Or.inl member
        · rw [List.mem_singleton] at member
          cases member
          exact Or.inr first
      · exact Or.inr held

theorem custody_finish_of_unwired (custody : Custody p m s) (unwired : s.wired = false) :
    Custody p m (finish l.recording s) := by
  obtain ⟨same, pending, launched⟩ := custody.untouched unwired
  -- there is nothing to close and no process to wait for
  have finished : finish l.recording s = { s with halted := true } := by
    obtain ⟨world, pipeline, pending', wired, next, halted, launched', statuses⟩ := s
    subst pending launched
    rfl
  rw [finished]
  refine ⟨fun _ => ⟨same, pending, launched⟩, fun _ running => ?_, fun wired => ?_, custody.waited⟩
  · cases running
  · rw [unwired] at wired
    cases wired

theorem custody_finish_of_wired (releases : l.Releases (wiredFiles p m)) (custody : Custody p m s)
    (wired : s.wired = true) : Custody p m (finish l.recording s) := by
  -- what is left is closed before the first process is waited for
  have halted := custody_halt wired (custody.confined wired) custody.waited
  have first : s.halt.world.1.machine.Confined (wiredFiles p m) [] := halted.confined wired
  obtain ⟨last, waits⟩ := foldl_reap_of_stable (l := l)
    (fun handle sh own confined =>
      Machine.Confined.givesUp confined (releases.wait handle sh own confined.known))
    s.launched { s.halt with launched := [] } first
  obtain ⟨after, own, events, finished, -⟩ := finish_recording l s
  refine ⟨fun unwired => ?_, fun _ running => ?_, fun _ => ?_, fun sh handle result member => ?_⟩
  · rw [finished] at unwired
    exact absurd (wired.symm.trans unwired) Bool.noConfusion
  · rw [finished] at running
    cases running
  · have released : (finish l.recording s).pending = [] := by rw [finished]; rfl
    rw [released]
    exact last
  · rcases waits sh handle result member with before | confined
    · exact custody.waited sh handle result before
    · exact confined.clear

/-! ### Any request -/

theorem custody_perform (releases : l.Releases (wiredFiles p m))
    (sound : Sound p s) (custody : Custody p m s) (request : Request) :
    Custody p m (perform l.recording s request).2 := by
  cases request with
  | hasNext => exact custody
  | execNext => exact custody_execNext releases sound custody
  | finish =>
      cases wired : s.wired with
      | false => exact custody_finish_of_unwired custody wired
      | true => exact custody_finish_of_wired releases custody wired

/-! ## Whole runs -/

theorem custody_run (releases : l.Releases (wiredFiles p m))
    (sound : Sound p s) (custody : Custody p m s) (requests : List Request) :
    Custody p m (run l.recording requests s).2 := by
  induction requests generalizing s with
  | nil => exact custody
  | cons request rest ih =>
      exact ih (sound_perform l sound request)
        (custody_perform releases sound custody request)

section Reached

variable (l : Launcher σ) (p : Pipeline) (world : Shell × σ)

theorem custody_reached (releases : l.Releases (wiredFiles p world.1.machine))
    (requests : List Request) : Custody p world.1.machine (reached l p world requests) :=
  custody_run releases (sound_start world.1 world.2 p) (custody_start world.1 world.2 p) requests

theorem clear_reached_finish (releases : l.Releases (wiredFiles p world.1.machine))
    (requests : List Request) :
    (reached l p world (requests ++ [.finish])).world.1.machine.Clear
      (wiredFiles p world.1.machine) := by
  have custody := custody_reached l p world releases (requests ++ [.finish])
  cases wired : (reached l p world (requests ++ [.finish])).wired with
  | false =>
      rw [(custody.untouched wired).1]
      exact fun file opened => opened.2
  | true =>
      have confined := custody.confined wired
      rw [(finished_reached l p world requests).2.1] at confined
      exact confined.clear

/-- What holds of the connections of a pipeline and of its files in all runs of a supervisor. -/
structure WaitsClear : Prop where
  /-- What is pending are the connections of the stages that are left, in their order. -/
  held : ∀ requests, (reached l p world requests).wired = true →
    (reached l p world requests).halted = false → ∃ connections m',
      wire p world.1.machine = (.ok connections, m') ∧ connections.length = p.size ∧
        (reached l p world requests).pending = connections.drop (reached l p world requests).next
  /-- A stage that is left has its connection, once the pipeline is wired. -/
  supplied : ∀ requests t, (reached l p world requests).hasNext = true →
    (reached l p world requests).connect = (.ok (), t) → ∃ c pending stage,
      t.pending = c :: pending ∧ t.pipeline.stages[t.next]? = some stage
  released : ∀ requests, (reached l p world requests).halted = true →
    (reached l p world requests).pending = []
  /-- The shell that waits has no file of the pipeline open. -/
  waits : ∀ requests sh handle result,
    .wait sh handle result ∈ (reached l p world requests).log →
      sh.machine.Clear (wiredFiles p world.1.machine)
  /-- Nor has the shell that gave the supervisor up. -/
  dropped : ∀ requests, (reached l p world (requests ++ [.finish])).world.1.machine.Clear
    (wiredFiles p world.1.machine)

end Reached

/-- With a launcher that gives up its connections, no shell waits for a process, or is done with a
pipeline, while it has a file open that it opened for the pipeline. -/
theorem waits_with_nothing_open (l : Launcher σ) (p : Pipeline) (world : Shell × σ)
    (releases : l.Releases (wiredFiles p world.1.machine)) : WaitsClear l p world where
  held := by
    intro requests wired running
    obtain ⟨connections, m', outcome, pending⟩ :=
      (custody_reached l p world releases requests).held wired running
    exact ⟨connections, m', outcome, length_wire outcome, pending⟩
  supplied := by
    intro requests t left connected
    have sound := sound_reached l p world requests
    obtain ⟨running, more⟩ := hasNext_eq_true_iff.mp left
    rcases connect_of_sound sound running with
      ⟨_, _, failed, -⟩ | ⟨t', opened, wired, running', next, -, sound'⟩
    · rw [failed] at connected
      cases connected
    · rw [opened] at connected
      cases connected
      apply pending_of_sound sound' _ wired
      rw [sound.pipeline] at more
      rw [hasNext_eq_true_iff, next, sound'.pipeline]
      exact ⟨running', more⟩
  released requests := (sound_reached l p world requests).released
  waits requests := (custody_reached l p world releases requests).waited
  dropped := clear_reached_finish l p world releases

/-- Whatever is asked of it, the shell itself waits with no pipe of `sort | uniq` open. -/
theorem sort_uniq_waits_with_nothing_open :
    WaitsClear (Job.launcher .joinAdoptExec) Wiring.sortUniq (bareShell, []) :=
  waits_with_nothing_open _ Wiring.sortUniq _ (Job.releases .joinAdoptExec _)

end Supervisor

end PipeShell
