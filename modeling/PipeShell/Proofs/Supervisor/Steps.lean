import PipeShell.Proofs.Supervisor.Recording
import PipeShell.Proofs.Wiring.Ownership

/-!
# Steps of a supervisor

What a request does to a supervisor, as equations: the first launch wires the pipeline, every launch
hands one connection to the launcher, giving up closes the connections that are left, and finishing
waits for one process after the other.
-/

set_option autoImplicit false

namespace PipeShell

variable {σ : Type}

/-! ## Closing connections -/

namespace Shell

/-- Connections are closed by closing what they own. -/
theorem disconnectAll_eq (sh : Shell) (connections : List Connection) :
    sh.disconnectAll connections =
      { sh with machine := sh.machine.closeAll (Wiring.owned connections) } := by
  induction connections generalizing sh with
  | nil => rfl
  | cons c connections ih =>
      rw [disconnectAll, List.foldl_cons, ← disconnectAll, ih, disconnect, Machine.disconnect,
        ← Machine.closeAll_append, Wiring.owned_cons]

end Shell

/-- A new session on a machine with nothing on it. -/
def bareShell : Shell :=
  { session := .fresh "$ ", machine := Wiring.bareMachine, log := [] }

/-- The process that a launch gave. -/
def Launched.handles : Launched → List Handle
  | process handle => [handle]
  | builtin _ => []

namespace Launcher

open Launcher (Event)

/-- A recorded launch is the launch itself, written down. -/
theorem recording_launch (l : Launcher σ) (stage : Stage) (c : Connection) (sh : Shell) (own : σ)
    (log : List Event) :
    l.recording.launch stage c (sh, own, log) =
      ((l.launch stage c (sh, own)).1, (l.launch stage c (sh, own)).2.1,
        (l.launch stage c (sh, own)).2.2,
        log ++ [.launch sh stage c (l.launch stage c (sh, own)).1]) := rfl

theorem recording_wait (l : Launcher σ) (handle : Handle) (sh : Shell) (own : σ)
    (log : List Event) :
    l.recording.wait handle (sh, own, log) =
      ((l.wait handle (sh, own)).1, (l.wait handle (sh, own)).2.1, (l.wait handle (sh, own)).2.2,
        log ++ [.wait sh handle (l.wait handle (sh, own)).1]) := rfl

end Launcher

namespace Supervisor

open Launcher (Event)

variable {l : Launcher σ} {s : Supervisor σ} {stage : Stage} {c : Connection}
  {pending : List Connection} {world : Shell × σ} {machine : Machine}

/-! ## Launching -/

theorem hasNext_start {p : Pipeline} (world : Shell × σ) (staged : p.stages ≠ []) :
    (start world p).hasNext = true := by
  rw [start, hasNext, Bool.not_false, Bool.true_and, decide_eq_true_eq]
  exact List.length_pos_iff.mpr staged

theorem launch_of_ok {launched : Launched}
    (outcome : l.launch stage c s.world = (.ok launched, world)) :
    launch l stage c s = (.ok launched.flow,
      { s with world, next := s.next + 1, launched := s.launched ++ launched.handles }) := by
  cases launched with
  | process handle => simp only [launch, outcome, Launched.flow, Launched.handles]
  | builtin flow =>
      simp only [launch, outcome, Launched.flow, Launched.handles, List.append_nil]

theorem launch_of_error {cause : ShellError}
    (outcome : l.launch stage c s.world = (.error cause, world)) :
    launch l stage c s = (.error cause, { s with world }.halt) := by
  simp only [launch, outcome]

theorem connect_of_wired (wired : s.wired = true) : s.connect = (.ok (), s) := by
  rw [connect, wired, if_pos rfl]

theorem connect_of_ok (unwired : s.wired = false)
    (outcome : wire s.pipeline s.world.1.machine = (.ok pending, machine)) :
    s.connect = (.ok (),
      { s with wired := true, pending, world := ({ s.world.1 with machine }, s.world.2) }) := by
  rw [connect, unwired, if_neg Bool.false_ne_true, outcome]

theorem connect_of_error (unwired : s.wired = false) {cause : ResourceError}
    (outcome : wire s.pipeline s.world.1.machine = (.error cause, machine)) :
    s.connect = (.error cause,
      { s with wired := true, world := ({ s.world.1 with machine }, s.world.2) }) := by
  rw [connect, unwired, if_neg Bool.false_ne_true, outcome]

/-- A stage that has its connection is launched with it. -/
theorem execNext_of_pending (left : s.hasNext = true) (wired : s.wired = true)
    (shape : s.pending = c :: pending) (here : s.pipeline.stages[s.next]? = some stage) :
    execNext l s = launch l stage c { s with pending } := by
  rw [execNext, if_pos left, connect_of_wired wired]
  simp only [shape, here]

/-- The first launch gives every stage its connection before. -/
theorem execNext_of_wire (left : s.hasNext = true) (unwired : s.wired = false)
    (outcome : wire s.pipeline s.world.1.machine = (.ok pending, machine)) :
    execNext l s = execNext l
      { s with wired := true, pending, world := ({ s.world.1 with machine }, s.world.2) } := by
  rw [execNext, if_pos left, connect_of_ok unwired outcome, execNext, connect_of_wired rfl]
  exact (if_pos left).symm

theorem execNext_of_refusal (left : s.hasNext = true) (unwired : s.wired = false)
    {cause : ResourceError}
    (outcome : wire s.pipeline s.world.1.machine = (.error cause, machine)) :
    execNext l s = (.error (.resource cause),
      { s with wired := true, world := ({ s.world.1 with machine }, s.world.2) }.halt) := by
  rw [execNext, if_pos left, connect_of_error unwired outcome]

/-! ## Waiting -/

/-- What waiting for a process leaves of the shell; that it failed is told. -/
def await (l : Launcher σ) (world : Shell × σ) (handle : Handle) : Shell × σ :=
  match l.wait handle world with
  | (.ok _, world) => world
  | (.error cause, (sh, own)) => (sh.warn [.waitFailed handle.program handle.pid cause], own)

theorem machine_await (l : Launcher σ) (world : Shell × σ) (handle : Handle) :
    (await l world handle).1.machine = (l.wait handle world).2.1.machine := by
  rcases outcome : l.wait handle world with ⟨cause | status, sh, own⟩ <;>
    simp only [await, outcome, Shell.warn]

theorem world_reap (l : Launcher σ) (s : Supervisor σ) (handle : Handle) :
    (reap l s handle).world = await l s.world handle := by
  rcases outcome : l.wait handle s.world with ⟨cause | status, sh, own⟩ <;>
    simp only [reap, await, outcome]

theorem world_foldl_reap (l : Launcher σ) (handles : List Handle) (s : Supervisor σ) :
    (handles.foldl (reap l) s).world = handles.foldl (await l) s.world := by
  induction handles generalizing s with
  | nil => rfl
  | cons handle handles ih => rw [List.foldl_cons, List.foldl_cons, ih, world_reap]

/-- Finishing closes what is left and waits for what was launched. -/
theorem world_finish (l : Launcher σ) (s : Supervisor σ) :
    (finish l s).world = s.launched.foldl (await l) s.halt.world :=
  world_foldl_reap l s.launched { s.halt with launched := [] }

end Supervisor

end PipeShell
