import PipeShell.Proofs.Supervisor.Recording

/-!
# The law of launching and waiting

Whatever a supervisor is asked, it launches stages from the first on and leaves none out, stops at
the first failure, and waits for each process once and in the order of the launches.  `Sound` is
what every single request preserves; `Lawful` is what follows for whole runs.
-/

set_option autoImplicit false

namespace PipeShell

variable {σ : Type} {p : Pipeline}

/-! ## Wiring -/

theorem Wiring.length_connectAll {inputFile outputFile : Option String} {first : Nat}
    {stages : List Stage} {ends : List PipeEnds} {m m' : Machine} {connections : List Connection}
    (connected : connectAll inputFile outputFile first stages ends m = (.ok connections, m')) :
    connections.length = stages.length := by
  induction stages generalizing first ends m m' connections with
  | nil =>
      cases connected
      rfl
  | cons stage rest ih =>
      rw [connectAll] at connected
      split at connected
      · cases connected
      · split at connected
        · cases connected
        · split at connected
          · cases connected
          · next others m'' behind =>
              cases connected
              rw [List.length_cons, List.length_cons, ih behind]

theorem length_wire {m m' : Machine} {connections : List Connection}
    (wired : wire p m = (.ok connections, m')) : connections.length = p.size := by
  unfold wire at wired
  split at wired
  · cases wired
  · exact Wiring.length_connectAll wired

namespace Supervisor

open Launcher (Event launches processes waits endings)

variable {s : Supervisor (σ × List Event)}

/-! ## What every request preserves -/

/-- What a log of calls says of the stages of `p`, of the processes that are still to be waited for
and of the statuses that were collected. -/
structure Ledger (p : Pipeline) (log : List Event) (launched : List Handle)
    (statuses : List WaitStatus) : Prop where
  inOrder : launches log <+: p.stages
  /-- There is no launch after one that failed. -/
  failsLast : log.Pairwise fun earlier later => earlier.Fails → later.stage? = none
  /-- A process was waited for, or it will be. -/
  reaped : waits log ++ launched = processes log
  ended : statuses = endings log

/-- How a supervisor for `p` and the log of its calls belong together. -/
structure Sound (p : Pipeline) (s : Supervisor (σ × List Event)) : Prop
    extends Ledger p s.log s.launched s.statuses where
  pipeline : s.pipeline = p
  counted : s.halted = false → (launches s.log).length = s.next
  clean : s.halted = false → ∀ event ∈ s.log, ¬ event.Fails
  unwired : s.wired = false → s.next = 0
  /-- The connections of the stages that are left. -/
  held : s.halted = false → s.wired = true → ∃ m m' connections,
    wire p m = (.ok connections, m') ∧ s.pending = connections.drop s.next
  released : s.halted = true → s.pending = []

theorem sound_start (sh : Shell) (own : σ) (p : Pipeline) :
    Sound p (start (sh, own, []) p) where
  inOrder := List.nil_prefix
  failsLast := .nil
  reaped := rfl
  ended := rfl
  pipeline := rfl
  counted _ := rfl
  clean := by simp [start, log]
  unwired _ := rfl
  held _ wired := by cases wired
  released halted := by cases halted

theorem sound_of_halted (pipeline : s.pipeline = p) (halted : s.halted = true)
    (wired : s.wired = false → s.next = 0) (released : s.pending = [])
    (ledger : Ledger p s.log s.launched s.statuses) : Sound p s where
  toLedger := ledger
  pipeline := pipeline
  counted running := by rw [halted] at running; cases running
  clean running := by rw [halted] at running; cases running
  unwired := wired
  held running := by rw [halted] at running; cases running
  released _ := released

theorem hasNext_eq_true_iff {s : Supervisor σ} :
    s.hasNext = true ↔ s.halted = false ∧ s.next < s.pipeline.size := by
  simp [hasNext]

theorem execNext_of_not_hasNext (l : Launcher σ) {s : Supervisor σ} (spent : s.hasNext = false) :
    execNext l s = (.ok .proceed, s) := by
  rw [execNext, spent]
  exact if_neg Bool.false_ne_true

theorem hasNext_of_halted {s : Supervisor σ} (halted : s.halted = true) : s.hasNext = false := by
  simp [hasNext, halted]

/-! ### Launching -/

/-- A pipeline is wired once.  This fails for good, or all connections are there afterwards. -/
theorem connect_cases (s : Supervisor σ) :
    (s.wired = true ∧ s.connect = (.ok (), s)) ∨
    s.wired = false ∧ ∃ machine,
      (∃ cause, wire s.pipeline s.world.1.machine = (.error cause, machine) ∧
        s.connect = (.error cause,
          { s with wired := true, world := ({ s.world.1 with machine }, s.world.2) })) ∨
      ∃ pending, wire s.pipeline s.world.1.machine = (.ok pending, machine) ∧
        s.connect = (.ok (),
          { s with wired := true, pending, world := ({ s.world.1 with machine }, s.world.2) }) := by
  unfold connect
  by_cases wired : s.wired = true
  · rw [if_pos wired]
    exact Or.inl ⟨wired, rfl⟩
  · rw [if_neg wired]
    refine Or.inr ⟨Bool.eq_false_iff.mpr wired, ?_⟩
    rcases wire s.pipeline s.world.1.machine with ⟨cause | pending, machine⟩
    · exact ⟨machine, Or.inl ⟨cause, rfl, rfl⟩⟩
    · exact ⟨machine, Or.inr ⟨pending, rfl, rfl⟩⟩

theorem connect_of_sound (sound : Sound p s) (running : s.halted = false) :
    (∃ cause t, s.connect = (.error cause, t) ∧ s.wired = false ∧ t.log = s.log ∧
      Sound p t.halt) ∨
    ∃ t, s.connect = (.ok (), t) ∧ t.wired = true ∧ t.halted = false ∧ t.next = s.next ∧
      t.log = s.log ∧ Sound p t := by
  rcases connect_cases s with
    ⟨wired, same⟩ | ⟨unwired, machine, ⟨cause, -, failed⟩ | ⟨pending, outcome, opened⟩⟩
  · exact Or.inr ⟨s, same, wired, running, rfl, rfl, sound⟩
  · refine Or.inl ⟨cause, _, failed, unwired, rfl, ?_⟩
    exact sound_of_halted sound.pipeline rfl (fun _ => sound.unwired unwired) rfl sound.toLedger
  · refine Or.inr ⟨_, opened, rfl, running, rfl, rfl, ?_⟩
    rw [sound.pipeline] at outcome
    exact
      { toLedger := sound.toLedger
        pipeline := sound.pipeline
        counted := sound.counted
        clean := sound.clean
        unwired := fun _ => sound.unwired unwired
        held := fun _ _ =>
          ⟨_, machine, pending, outcome, by rw [sound.unwired unwired, List.drop_zero]⟩
        released := fun halted => by rw [running] at halted; cases halted }

theorem pending_of_sound (sound : Sound p s) (left : s.hasNext = true) (wired : s.wired = true) :
    ∃ c pending stage, s.pending = c :: pending ∧ s.pipeline.stages[s.next]? = some stage := by
  obtain ⟨running, more⟩ := hasNext_eq_true_iff.mp left
  obtain ⟨m, m', connections, outcome, pending⟩ := sound.held running wired
  have more' : s.next < connections.length := by rwa [length_wire outcome, ← sound.pipeline]
  rw [List.drop_eq_getElem_cons more'] at pending
  exact ⟨_, _, _, pending, List.getElem?_eq_getElem more⟩

/-- A launch is one call.  It goes on to the next stage, or halts. -/
theorem launch_recording (l : Launcher σ) (stage : Stage) (c : Connection)
    (s : Supervisor (σ × List Event)) :
    ∃ after own,
      (∃ launched, launch l.recording stage c s = (.ok launched.flow,
        { s with
          world := (after, own, s.log ++ [Event.launch s.world.1 stage c (.ok launched)])
          next := s.next + 1
          launched := s.launched ++
            processes [Event.launch s.world.1 stage c (.ok launched)] })) ∨
      ∃ cause, launch l.recording stage c s = (.error cause,
        { s with
          world := (after, own, s.log ++ [Event.launch s.world.1 stage c (.error cause)]) }.halt) := by
  obtain ⟨⟨sh, own, log⟩, pipeline, pending, wired, next, halted, launched, statuses⟩ := s
  rcases outcome : l.launch stage c (sh, own) with ⟨cause | handle | flow, after, own'⟩
  · refine ⟨after, own', Or.inr ⟨cause, ?_⟩⟩
    simp only [launch, Launcher.recording, outcome]
    rfl
  · refine ⟨after, own', Or.inl ⟨.process handle, ?_⟩⟩
    simp only [launch, Launcher.recording, outcome]
    rfl
  · refine ⟨after, own', Or.inl ⟨.builtin flow, ?_⟩⟩
    simp only [launch, Launcher.recording, outcome, processes, List.filterMap_cons, Event.process?,
      List.filterMap_nil, List.append_nil]
    rfl

theorem Ledger.launch {log : List Event} {launched : List Handle} {statuses : List WaitStatus}
    (ledger : Ledger p log launched statuses) (clean : ∀ event ∈ log, ¬ event.Fails) {stage : Stage}
    (next : p.stages[(launches log).length]? = some stage) (sh : Shell) (c : Connection)
    (result : Except ShellError Launched) :
    Ledger p (log ++ [.launch sh stage c result])
      (launched ++ processes [.launch sh stage c result]) statuses where
  inOrder := by
    obtain ⟨rest, whole⟩ := ledger.inOrder
    rw [← whole, List.getElem?_append_right (Nat.le_refl _), Nat.sub_self] at next
    obtain ⟨later, rfl⟩ : ∃ later, rest = stage :: later := by
      cases rest with
      | nil => cases next
      | cons first later =>
          cases next
          exact ⟨later, rfl⟩
    refine ⟨later, ?_⟩
    rw [← whole, Launcher.launches_append, List.append_assoc]
    rfl
  failsLast := by
    rw [List.pairwise_append]
    refine ⟨ledger.failsLast, List.pairwise_singleton _ _, ?_⟩
    intro event member _ _ fails
    exact absurd fails (clean event member)
  reaped := by
    rw [Launcher.waits_append, Launcher.processes_append, ← ledger.reaped]
    simp [waits, Event.waited?]
  ended := by
    rw [Launcher.endings_append, ← ledger.ended]
    exact (List.append_nil statuses).symm

theorem turn_of_sound (sound : Sound p s) (running : s.halted = false) :
    p.stages[(launches s.log).length]? = s.pipeline.stages[s.next]? := by
  rw [sound.counted running, sound.pipeline]

theorem sound_of_launched (sound : Sound p s) (running : s.halted = false) (wired : s.wired = true)
    {c : Connection} {pending : List Connection} {stage : Stage} (shape : s.pending = c :: pending)
    (here : s.pipeline.stages[s.next]? = some stage) (after : Shell) (own : σ)
    (launched : Launched) :
    Sound p
      { s with
        pending
        world := (after, own, s.log ++ [Event.launch s.world.1 stage c (.ok launched)])
        next := s.next + 1
        launched := s.launched ++
          processes [Event.launch s.world.1 stage c (.ok launched)] } where
  toLedger := sound.toLedger.launch (sound.clean running)
    ((turn_of_sound sound running).trans here) s.world.1 c (.ok launched)
  pipeline := sound.pipeline
  counted := by
    intro _
    simp only [log, Launcher.launches_append, List.length_append]
    exact congrArg (· + 1) (sound.counted running)
  clean := by
    intro _ event member
    rcases List.mem_append.mp member with member | member
    · exact sound.clean running event member
    · rw [List.mem_singleton] at member
      subst member
      exact not_false
  unwired := fun unwired => by rw [wired] at unwired; cases unwired
  held := by
    intro _ _
    -- what is pending is the tail of what was
    obtain ⟨m, m', connections, outcome, rest⟩ := sound.held running wired
    refine ⟨m, m', connections, outcome, ?_⟩
    rw [← List.tail_drop, ← rest, shape, List.tail_cons]
  released := fun halted => by rw [running] at halted; cases halted

theorem launch_of_sound (l : Launcher σ) (sound : Sound p s) (running : s.halted = false)
    (wired : s.wired = true) {c : Connection} {pending : List Connection} {stage : Stage}
    (shape : s.pending = c :: pending) (here : s.pipeline.stages[s.next]? = some stage) :
    ∃ result t, launch l.recording stage c { s with pending } = (result.map Launched.flow, t) ∧
      t.log = s.log ++ [.launch s.world.1 stage c result] ∧
      (t.halted = true ↔ ∃ cause, result = .error cause) ∧ Sound p t := by
  obtain ⟨after, own, ⟨launched, went⟩ | ⟨cause, refused⟩⟩ :=
    launch_recording l stage c { s with pending }
  · refine ⟨.ok launched, _, went, rfl, ?_, ?_⟩
    · rw [running]
      simp
    · exact sound_of_launched sound running wired shape here after own launched
  · refine ⟨.error cause, _, refused, rfl, iff_of_true rfl ⟨cause, rfl⟩, ?_⟩
    have ledger := sound.toLedger.launch (sound.clean running)
      ((turn_of_sound sound running).trans here) s.world.1 c (.error cause)
    have none : processes [.launch s.world.1 stage c (.error cause)] = [] := rfl
    rw [none, List.append_nil] at ledger
    exact sound_of_halted sound.pipeline rfl sound.unwired rfl ledger

/-- With a stage left, a request to launch makes one call, for the stage whose turn it is.  Only the
first time it may make none, for want of connections. -/
theorem execNext_of_sound (l : Launcher σ) (sound : Sound p s) (left : s.hasNext = true) :
    (∃ cause t, execNext l.recording s = (.error (.resource cause), t) ∧ s.wired = false ∧
      t.log = s.log ∧ t.halted = true ∧ Sound p t) ∨
    ∃ sh stage c result t, execNext l.recording s = (result.map Launched.flow, t) ∧
      p.stages[(launches s.log).length]? = some stage ∧
      t.log = s.log ++ [.launch sh stage c result] ∧
      (t.halted = true ↔ ∃ cause, result = .error cause) ∧ Sound p t := by
  obtain ⟨running, more⟩ := hasNext_eq_true_iff.mp left
  unfold execNext
  rw [if_pos left]
  rcases connect_of_sound sound running with
    ⟨cause, t, failed, unwired, same, halted⟩ |
      ⟨t, opened, wired, running', next, same, sound'⟩
  · rw [failed]
    exact Or.inl ⟨cause, t.halt, rfl, unwired, same, rfl, halted⟩
  · have left' : t.hasNext = true := by
      rw [hasNext_eq_true_iff, next, sound'.pipeline, ← sound.pipeline]
      exact ⟨running', more⟩
    obtain ⟨c, pending, stage, shape, here⟩ := pending_of_sound sound' left' wired
    obtain ⟨result, t', launched, logged, halts, sound''⟩ :=
      launch_of_sound l sound' running' wired shape here
    have turn := (turn_of_sound sound' running').trans here
    rw [same] at turn logged
    simp only [opened, shape, here]
    exact Or.inr ⟨_, stage, c, result, t', launched, turn, logged, halts, sound''⟩

/-! ### Finishing -/

theorem reap_recording (l : Launcher σ) (s : Supervisor (σ × List Event)) (handle : Handle) :
    ∃ after own result, reap l.recording s handle =
      { s with
        world := (after, own, s.log ++ [Event.wait s.world.1 handle result])
        statuses := s.statuses ++ endings [.wait s.world.1 handle result] } := by
  obtain ⟨⟨sh, own, log⟩, pipeline, pending, wired, next, halted, launched, statuses⟩ := s
  rcases outcome : l.wait handle (sh, own) with ⟨cause | status, after, own'⟩
  · refine ⟨after.warn [.waitFailed handle.program handle.pid cause], own', .error cause, ?_⟩
    simp only [reap, Launcher.recording, outcome, endings, List.filterMap_cons, Event.status?,
      List.filterMap_nil, List.append_nil]
    rfl
  · refine ⟨after, own', .ok status, ?_⟩
    simp only [reap, Launcher.recording, outcome]
    rfl

/-- Reaping makes a call for each process and does nothing else. -/
theorem foldl_reap_recording (l : Launcher σ) (handles : List Handle)
    (s : Supervisor (σ × List Event)) :
    ∃ after own events, handles.foldl (reap l.recording) s =
        { s with
          world := (after, own, s.log ++ events)
          statuses := s.statuses ++ endings events } ∧
      launches events = [] ∧ processes events = [] ∧ waits events = handles := by
  induction handles generalizing s with
  | nil =>
      refine ⟨s.world.1, s.world.2.1, [], ?_, rfl, rfl, rfl⟩
      simp only [List.foldl_nil, log, endings, List.filterMap_nil, List.append_nil]
  | cons handle handles ih =>
      obtain ⟨after, own, result, reaped⟩ := reap_recording l s handle
      obtain ⟨after', own', events, others, launched, given, waited⟩ := ih (reap l.recording s handle)
      refine ⟨after', own', .wait s.world.1 handle result :: events, ?_, launched, given,
        congrArg (handle :: ·) waited⟩
      rw [List.foldl_cons, others, reaped]
      simp only [log, List.append_assoc, List.singleton_append, ← Launcher.endings_append]

/-- A supervisor that is finished has halted, and all processes were waited for. -/
theorem finish_recording (l : Launcher σ) (s : Supervisor (σ × List Event)) :
    ∃ after own events, finish l.recording s =
        { s.halt with
          launched := []
          world := (after, own, s.log ++ events)
          statuses := s.statuses ++ endings events } ∧
      launches events = [] ∧ processes events = [] ∧ waits events = s.launched :=
  foldl_reap_recording l s.launched { s.halt with launched := [] }

theorem Ledger.reap {log events : List Event} {launched : List Handle} {statuses : List WaitStatus}
    (ledger : Ledger p log launched statuses) (still : launches events = [])
    (given : processes events = []) (waited : waits events = launched) :
    Ledger p (log ++ events) [] (statuses ++ endings events) where
  inOrder := by
    rw [Launcher.launches_append, still, List.append_nil]
    exact ledger.inOrder
  failsLast := by
    have none : ∀ event ∈ events, event.stage? = none := List.filterMap_eq_nil_iff.mp still
    rw [List.pairwise_append]
    refine ⟨ledger.failsLast, List.pairwise_of_forall_mem_list ?_, ?_⟩
    · intro _ _ later member _
      exact none later member
    · intro _ _ later member _
      exact none later member
  reaped := by
    rw [Launcher.waits_append, Launcher.processes_append, given, waited, List.append_nil,
      List.append_nil]
    exact ledger.reaped
  ended := by rw [Launcher.endings_append, ledger.ended]

theorem finish_of_idle (l : Launcher σ) {s : Supervisor σ} (halted : s.halted = true)
    (released : s.pending = []) (reaped : s.launched = []) : finish l s = s := by
  obtain ⟨world, pipeline, pending, wired, next, halted', launched, statuses⟩ := s
  subst halted released reaped
  rfl

/-! ### Any request -/

theorem sound_perform (l : Launcher σ) (sound : Sound p s) (request : Request) :
    Sound p (perform l.recording s request).2 := by
  cases request with
  | hasNext => exact sound
  | execNext =>
      rw [perform]
      cases left : s.hasNext with
      | false =>
          rw [execNext_of_not_hasNext l.recording left]
          exact sound
      | true =>
          rcases execNext_of_sound l sound left with
            ⟨_, t, asked, -, -, -, sound'⟩ | ⟨_, _, _, _, t, asked, -, -, -, sound'⟩
          all_goals
            rw [asked]
            exact sound'
  | finish =>
      obtain ⟨after, own, events, finished, still, given, waited⟩ := finish_recording l s
      rw [perform, finished]
      exact sound_of_halted sound.pipeline rfl sound.unwired rfl
        (sound.toLedger.reap still given waited)

/-- A supervisor halts when it answers so, and at no other time. -/
theorem halted_perform_iff (l : Launcher σ) (sound : Sound p s) (request : Request) :
    (perform l.recording s request).2.halted = true ↔
      s.halted = true ∨ (perform l.recording s request).1.Stops := by
  cases request with
  | hasNext => exact (or_iff_left not_false).symm
  | execNext =>
      rw [perform]
      cases left : s.hasNext with
      | false =>
          rw [execNext_of_not_hasNext l.recording left]
          exact (or_iff_left not_false).symm
      | true =>
          have running := (hasNext_eq_true_iff.mp left).1
          rcases execNext_of_sound l sound left with
            ⟨_, t, asked, -, -, halted, -⟩ | ⟨_, _, _, cause | launched, t, asked, -, -, halted, -⟩
          · rw [asked]
            exact iff_of_true halted (Or.inr trivial)
          · rw [asked]
            exact iff_of_true (halted.mpr ⟨cause, rfl⟩) (Or.inr trivial)
          · rw [asked, running]
            simp [halted, Except.map, Answer.Stops]
  | finish =>
      obtain ⟨after, own, events, finished, -⟩ := finish_recording l s
      rw [perform, finished]
      exact iff_of_true rfl (Or.inr trivial)

theorem launches_perform (l : Launcher σ) (halted : s.halted = true) (request : Request) :
    launches (perform l.recording s request).2.log = launches s.log := by
  cases request with
  | hasNext => rfl
  | execNext => rw [perform, execNext_of_not_hasNext l.recording (hasNext_of_halted halted)]
  | finish =>
      obtain ⟨after, own, events, finished, still, -⟩ := finish_recording l s
      rw [perform, finished]
      simp only [log, Launcher.launches_append, still, List.append_nil]

theorem perform_of_idle (l : Launcher σ) {s : Supervisor σ} (halted : s.halted = true)
    (released : s.pending = []) (reaped : s.launched = []) (request : Request) :
    (perform l s request).2 = s := by
  cases request with
  | hasNext => rfl
  | execNext => rw [perform, execNext_of_not_hasNext l (hasNext_of_halted halted)]
  | finish => exact finish_of_idle l halted released reaped

/-! ## Whole runs -/

theorem sound_run (l : Launcher σ) (sound : Sound p s) (requests : List Request) :
    Sound p (run l.recording requests s).2 := by
  induction requests generalizing s with
  | nil => exact sound
  | cons request rest ih => exact ih (sound_perform l sound request)

theorem halted_run_iff (l : Launcher σ) (sound : Sound p s) (requests : List Request) :
    (run l.recording requests s).2.halted = true ↔
      s.halted = true ∨ ∃ answer ∈ (run l.recording requests s).1, answer.Stops := by
  induction requests generalizing s with
  | nil => simp [run]
  | cons request rest ih =>
      rw [run, ih (sound_perform l sound request), halted_perform_iff l sound request]
      simp only [List.mem_cons, exists_eq_or_imp, or_assoc]

theorem launches_run (l : Launcher σ) (sound : Sound p s) (halted : s.halted = true)
    (requests : List Request) :
    launches (run l.recording requests s).2.log = launches s.log := by
  induction requests generalizing s with
  | nil => rfl
  | cons request rest ih =>
      have halted' := (halted_perform_iff l sound request).mpr (Or.inl halted)
      exact (ih (sound_perform l sound request) halted').trans (launches_perform l halted request)

theorem run_of_idle (l : Launcher σ) {s : Supervisor σ} (halted : s.halted = true)
    (released : s.pending = []) (reaped : s.launched = []) (requests : List Request) :
    (run l requests s).2 = s := by
  induction requests with
  | nil => rfl
  | cons request rest ih =>
      rw [run, perform_of_idle l halted released reaped request]
      exact ih

section Reached

variable (l : Launcher σ) (p : Pipeline) (world : Shell × σ)

/-- The supervisor of `p` after some requests, with the log of its calls. -/
def reached (requests : List Request) : Supervisor (σ × List Event) :=
  (run l.recording requests (start (world.1, world.2, []) p)).2

/-- What it answers to one more request. -/
def answered (requests : List Request) (request : Request) : Answer :=
  (perform l.recording (reached l p world requests) request).1

theorem reached_append (first second : List Request) :
    reached l p world (first ++ second) = (run l.recording second (reached l p world first)).2 :=
  run_append ..

theorem reached_concat (requests : List Request) (request : Request) :
    reached l p world (requests ++ [request]) =
      (perform l.recording (reached l p world requests) request).2 :=
  reached_append l p world requests [request]

theorem reached_cons (earlier : List Request) (request : Request) (later : List Request) :
    reached l p world (earlier ++ request :: later) =
      (run l.recording later (reached l p world (earlier ++ [request]))).2 := by
  rw [List.append_cons, reached_append]

theorem sound_reached (requests : List Request) : Sound p (reached l p world requests) :=
  sound_run l (sound_start world.1 world.2 p) requests

theorem halted_reached_iff (requests : List Request) :
    (reached l p world requests).halted = true ↔
      ∃ answer ∈ (run l requests (start world p)).1, answer.Stops := by
  have halted := halted_run_iff l (sound_start world.1 world.2 p) requests
  have same := congrArg Prod.fst (run_forget l requests (start (world.1, world.2, []) p))
  rw [← same] at halted
  exact halted.trans (or_iff_right Bool.false_ne_true)

theorem hasNext_reached_iff (requests : List Request) :
    (reached l p world requests).hasNext = true ↔
      (launches (reached l p world requests).log).length < p.size ∧
        ∀ answer ∈ (run l requests (start world p)).1, ¬ answer.Stops := by
  have sound := sound_reached l p world requests
  have running : (reached l p world requests).halted = false ↔
      ∀ answer ∈ (run l requests (start world p)).1, ¬ answer.Stops := by
    rw [← Bool.not_eq_true, halted_reached_iff]
    simp only [not_exists, not_and]
  rw [hasNext_eq_true_iff, sound.pipeline, ← running, and_comm]
  exact and_congr_left fun running => by rw [sound.counted running]

theorem execNext_reached (requests : List Request)
    (left : (reached l p world requests).hasNext = true) :
    (∃ cause, answered l p world requests .execNext = .execNext (.error (.resource cause)) ∧
      (reached l p world requests).wired = false ∧
      (reached l p world (requests ++ [.execNext])).log = (reached l p world requests).log) ∨
    ∃ sh stage c result,
      answered l p world requests .execNext = .execNext (result.map Launched.flow) ∧
      p.stages[(launches (reached l p world requests).log).length]? = some stage ∧
      (reached l p world (requests ++ [.execNext])).log =
        (reached l p world requests).log ++ [.launch sh stage c result] := by
  rw [answered, reached_concat, perform]
  rcases execNext_of_sound l (sound_reached l p world requests) left with
    ⟨cause, t, asked, unwired, same, -, -⟩ | ⟨sh, stage, c, result, t, asked, turn, logged, -, -⟩
  · rw [asked]
    exact Or.inl ⟨cause, rfl, unwired, same⟩
  · rw [asked]
    exact Or.inr ⟨sh, stage, c, result, rfl, turn, logged⟩

theorem stopped_reached (earlier : List Request) (request : Request) (later : List Request)
    (stops : (answered l p world earlier request).Stops) :
    (reached l p world (earlier ++ request :: later)).hasNext = false ∧
      launches (reached l p world (earlier ++ request :: later)).log =
        launches (reached l p world (earlier ++ [request])).log := by
  have halted : (reached l p world (earlier ++ [request])).halted = true := by
    rw [reached_concat]
    exact (halted_perform_iff l (sound_reached l p world earlier) request).mpr (Or.inr stops)
  have sound := sound_reached l p world (earlier ++ [request])
  rw [reached_cons]
  constructor
  · apply hasNext_of_halted
    exact (halted_run_iff l sound later).mpr (Or.inl halted)
  · exact launches_run l sound halted later

theorem finished_reached (requests : List Request) :
    (reached l p world (requests ++ [.finish])).halted = true ∧
      (reached l p world (requests ++ [.finish])).pending = [] ∧
      (reached l p world (requests ++ [.finish])).launched = [] := by
  obtain ⟨after, own, events, finished, -⟩ := finish_recording l (reached l p world requests)
  rw [reached_concat, perform, finished]
  exact ⟨rfl, rfl, rfl⟩

theorem waits_reached_finish (requests : List Request) :
    waits (reached l p world (requests ++ [.finish])).log =
      processes (reached l p world (requests ++ [.finish])).log := by
  have reaped := (sound_reached l p world (requests ++ [.finish])).reaped
  rw [(finished_reached l p world requests).2.2, List.append_nil] at reaped
  exact reaped

theorem statuses_reached_finish (requests : List Request) :
    answered l p world requests .finish =
      .finish (endings (reached l p world (requests ++ [.finish])).log) := by
  have ended := (sound_reached l p world (requests ++ [.finish])).ended
  rw [← ended, reached_concat]
  rfl

theorem reached_finish_cons (earlier later : List Request) :
    reached l p world (earlier ++ .finish :: later) =
      reached l p world (earlier ++ [.finish]) := by
  obtain ⟨halted, released, reaped⟩ := finished_reached l p world earlier
  rw [reached_cons]
  exact run_of_idle l.recording halted released reaped later

theorem answered_finish_cons (earlier later : List Request) :
    answered l p world (earlier ++ .finish :: later) .finish =
      answered l p world earlier .finish := by
  obtain ⟨halted, released, reaped⟩ := finished_reached l p world earlier
  rw [answered, reached_finish_cons, perform, finish_of_idle l.recording halted released reaped,
    reached_concat]
  rfl

/-- What holds of the calls in all runs of a supervisor.  To give a supervisor up is to finish it,
so the last request of a whole run is `finish`. -/
structure Lawful : Prop where
  /-- The log is the only difference that recording makes. -/
  observed : ∀ requests, run l requests (start world p) =
    ((run l.recording requests (start (world.1, world.2, []) p)).1,
      (reached l p world requests).forget)
  /-- No stage is left out and none is launched again. -/
  inOrder : ∀ requests, launches (reached l p world requests).log <+: p.stages
  /-- There is no launch after one that failed. -/
  failsLast : ∀ requests, (reached l p world requests).log.Pairwise
    fun earlier later => earlier.Fails → later.stage? = none
  /-- A stage is left until all are launched or an answer stops the run. -/
  left : ∀ requests, (reached l p world requests).hasNext = true ↔
    (launches (reached l p world requests).log).length < p.size ∧
      ∀ answer ∈ (run l requests (start world p)).1, ¬ answer.Stops
  /-- A stage that is left is launched by one call, unless wiring fails. -/
  advances : ∀ requests, (reached l p world requests).hasNext = true →
    (∃ cause, answered l p world requests .execNext = .execNext (.error (.resource cause)) ∧
      (reached l p world requests).wired = false ∧
      (reached l p world (requests ++ [.execNext])).log = (reached l p world requests).log) ∨
    ∃ sh stage c result,
      answered l p world requests .execNext = .execNext (result.map Launched.flow) ∧
      p.stages[(launches (reached l p world requests).log).length]? = some stage ∧
      (reached l p world (requests ++ [.execNext])).log =
        (reached l p world requests).log ++ [.launch sh stage c result]
  /-- After an error or a finish no stage is left and none is launched. -/
  stops : ∀ earlier request later, (answered l p world earlier request).Stops →
    (reached l p world (earlier ++ request :: later)).hasNext = false ∧
      launches (reached l p world (earlier ++ request :: later)).log =
        launches (reached l p world (earlier ++ [request])).log
  /-- Each process was waited for once, in the order of the launches, and nothing else. -/
  reaps : ∀ requests, waits (reached l p world (requests ++ [.finish])).log =
    processes (reached l p world (requests ++ [.finish])).log
  statuses : ∀ requests, answered l p world requests .finish =
    .finish (endings (reached l p world (requests ++ [.finish])).log)
  /-- Nothing that is asked after a finish has an effect, and a finish answers as before. -/
  again : ∀ earlier later,
    reached l p world (earlier ++ .finish :: later) = reached l p world (earlier ++ [.finish]) ∧
      answered l p world (earlier ++ .finish :: later) .finish = answered l p world earlier .finish

end Reached

/-- Whatever the launcher does and whatever it is asked, a supervisor keeps the law. -/
theorem launches_in_order_and_waits_once (l : Launcher σ) (p : Pipeline) (world : Shell × σ) :
    Lawful l p world where
  observed requests := run_forget l requests (start (world.1, world.2, []) p)
  inOrder requests := (sound_reached l p world requests).inOrder
  failsLast requests := (sound_reached l p world requests).failsLast
  left := hasNext_reached_iff l p world
  advances := execNext_reached l p world
  stops := stopped_reached l p world
  reaps := waits_reached_finish l p world
  statuses := statuses_reached_finish l p world
  again earlier later :=
    ⟨reached_finish_cons l p world earlier later, answered_finish_cons l p world earlier later⟩

end Supervisor

end PipeShell
