import PipeShell.Launcher

/-!
# Supervisors

A supervisor carries one pipeline through: it wires it, launches its stages
from left to right and waits for every process it launched.  It is driven by
`execNext` and `finish`; a supervisor that is given up is finished as well, so
no process is left behind.  `eval` drives one to the end for a line of input.

Once halted, a supervisor launches nothing more and holds no connection, so
whoever waits for its processes waits with the pipes closed on the shell's
side.
-/

set_option autoImplicit false

namespace PipeShell

structure Supervisor (σ : Type) where
  /-- The shell, and what the launcher keeps. -/
  world : Shell × σ
  pipeline : Pipeline
  /-- The connections of the stages that were not launched.  There are none before wiring. -/
  pending : List Connection
  wired : Bool
  next : Nat
  halted : Bool
  /-- Processes that are to be waited for, in the order in which they were launched. -/
  launched : List Handle
  /-- How those ended that were waited for. -/
  statuses : List WaitStatus

namespace Supervisor

variable {σ : Type}

def start (world : Shell × σ) (pipeline : Pipeline) : Supervisor σ :=
  { world, pipeline, pending := [], wired := false, next := 0, halted := false,
    launched := [], statuses := [] }

def hasNext (s : Supervisor σ) : Bool :=
  !s.halted && s.next < s.pipeline.size

/-- Gives up the stages that were not launched and closes what is connected to them. -/
def halt (s : Supervisor σ) : Supervisor σ :=
  { s with
    halted := true
    world := (s.world.1.disconnectAll s.pending, s.world.2)
    pending := [] }

/-- Wires the pipeline, the first time. -/
def connect (s : Supervisor σ) : Except ResourceError Unit × Supervisor σ :=
  if s.wired then (.ok (), s)
  else
    let (result, machine) := wire s.pipeline s.world.1.machine
    let s := { s with wired := true, world := ({ s.world.1 with machine }, s.world.2) }
    match result with
    | .error cause => (.error cause, s)
    | .ok pending => (.ok (), { s with pending })

/-- Launches a stage that has its connection. -/
def launch (l : Launcher σ) (stage : Stage) (c : Connection) (s : Supervisor σ) :
    Except ShellError Flow × Supervisor σ :=
  match l.launch stage c s.world with
  | (.ok (.process handle), world) =>
    (.ok .proceed, { s with world, next := s.next + 1, launched := s.launched ++ [handle] })
  | (.ok (.builtin flow), world) => (.ok flow, { s with world, next := s.next + 1 })
  | (.error cause, world) => (.error cause, { s with world }.halt)

/-- Launches the next stage.  The first time, the pipeline is wired before.  An error halts. -/
def execNext (l : Launcher σ) (s : Supervisor σ) : Except ShellError Flow × Supervisor σ :=
  if s.hasNext then
    match s.connect with
    | (.error cause, s) => (.error (.resource cause), s.halt)
    | (.ok (), s) =>
      match s.pending, s.pipeline.stages[s.next]? with
      | c :: pending, some stage => launch l stage c { s with pending }
      | _, _ => (.ok .proceed, s.halt)
  else (.ok .proceed, s)

/-- Waits for one process. -/
def reap (l : Launcher σ) (s : Supervisor σ) (handle : Handle) : Supervisor σ :=
  match l.wait handle s.world with
  | (.ok status, world) => { s with world, statuses := s.statuses ++ [status] }
  | (.error cause, (sh, own)) =>
    { s with world := (sh.warn [.waitFailed handle.program handle.pid cause], own) }

/-- Halts and waits for every process that was launched, each once and in order.  The statuses of
those for which waiting did not fail are then in `statuses`. -/
def finish (l : Launcher σ) (s : Supervisor σ) : Supervisor σ :=
  let s := s.halt
  s.launched.foldl (reap l) { s with launched := [] }

/-! ## Driving a supervisor to the end -/

/-- How many stages may still be launched. -/
def remaining (s : Supervisor σ) : Nat :=
  if s.halted then 0 else s.pipeline.size - s.next

theorem halted_halt (s : Supervisor σ) : s.halt.halted = true := rfl

theorem remaining_of_halted {s : Supervisor σ} (h : s.halted = true) : s.remaining = 0 := by
  simp [remaining, h]

theorem remaining_pos_of_hasNext {s : Supervisor σ} (h : s.hasNext = true) : 0 < s.remaining := by
  simp only [hasNext, Bool.and_eq_true, Bool.not_eq_true', decide_eq_true_eq] at h
  simp only [remaining, h.1, Bool.false_eq_true, if_false]
  omega

theorem remaining_connect (s : Supervisor σ) : s.connect.2.remaining = s.remaining := by
  unfold connect
  split
  · rfl
  · dsimp only
    split <;> rfl

theorem hasNext_connect (s : Supervisor σ) : s.connect.2.hasNext = s.hasNext := by
  unfold connect
  split
  · rfl
  · dsimp only
    split <;> rfl

/-- A launch halts the supervisor or goes on to the next stage. -/
theorem remaining_launch_lt (l : Launcher σ) (stage : Stage) (c : Connection) {s : Supervisor σ}
    (h : s.hasNext = true) : (launch l stage c s).2.remaining < s.remaining := by
  have hpos := remaining_pos_of_hasNext h
  have hstep : ∀ t : Supervisor σ, t.halted = s.halted → t.pipeline = s.pipeline →
      t.next = s.next + 1 → t.remaining < s.remaining := by
    intro t hhalted hpipeline hnext
    simp only [hasNext, Bool.and_eq_true, Bool.not_eq_true', decide_eq_true_eq] at h
    simp only [remaining, hhalted, hpipeline, hnext, h.1, Bool.false_eq_true, if_false]
    omega
  unfold launch
  split
  · exact hstep _ rfl rfl rfl
  · exact hstep _ rfl rfl rfl
  · next world _ =>
    rw [remaining_of_halted (halted_halt { s with world })]
    exact hpos

theorem remaining_execNext_lt (l : Launcher σ) {s : Supervisor σ} (h : s.hasNext = true) :
    (execNext l s).2.remaining < s.remaining := by
  have hpos := remaining_pos_of_hasNext h
  have hremaining := remaining_connect s
  have hnext := hasNext_connect s
  unfold execNext
  rw [if_pos h]
  split
  · next s' _ =>
    rw [remaining_of_halted (halted_halt s')]
    exact hpos
  · next s' heq =>
    rw [heq] at hremaining hnext
    split
    · next c pending stage _ _ =>
      have hlt := remaining_launch_lt l stage c (s := { s' with pending }) (hnext.trans h)
      exact Nat.lt_of_lt_of_eq hlt hremaining
    · rw [remaining_of_halted (halted_halt s')]
      exact hpos

/-- Launches stages until none is left or one fails.  Gives the failure, or the last flow that was
not to proceed. -/
def execAll (l : Launcher σ) (flow : Flow) (s : Supervisor σ) :
    Except ShellError Flow × Supervisor σ :=
  if _ : s.hasNext then
    match _ : execNext l s with
    | (.error cause, s') => (.error cause, s')
    | (.ok .exit, s') => execAll l .exit s'
    | (.ok .proceed, s') => execAll l flow s'
  else (.ok flow, s)
termination_by s.remaining
decreasing_by
  all_goals
    have hlt := remaining_execNext_lt l ‹s.hasNext = true›
    rw [‹execNext l s = _›] at hlt
    exact hlt

end Supervisor

/-- Evaluates a line: compiles it, launches its stages and waits for all of them. -/
def eval {σ : Type} (l : Launcher σ) (line : String) (world : Shell × σ) :
    Except ShellError Flow × (Shell × σ) :=
  match compile world.1.context line with
  | .error cause => (.error cause, world)
  | .ok pipeline =>
    let (result, s) := (Supervisor.start world pipeline).execAll l .proceed
    (result, (s.finish l).world)

end PipeShell
