import PipeShell.Supervisor

/-!
# Recorded runs of a supervisor

Whoever has a supervisor may ask it for anything in any order: whether a stage is left, to launch
the next one, and to finish.  To give it up is to finish it once more.  `run` carries out a list of
such requests.

`Launcher.recording` writes every call that reaches a launcher into a log beside the launcher's own
state.  It changes nothing else (`run_forget`), so what holds of the log of a recorded run says
which calls are made in any run.
-/

set_option autoImplicit false

namespace PipeShell

variable {σ : Type}

namespace Launcher

/-! ## Calls -/

/-- A call that reached a launcher: the shell as it was, and what came of the call. -/
inductive Event where
  | launch (sh : Shell) (stage : Stage) (c : Connection) (result : Except ShellError Launched)
  | wait (sh : Shell) (handle : Handle) (result : Except Errno WaitStatus)

namespace Event

/-- The stage that was to be launched. -/
def stage? : Event → Option Stage
  | launch _ stage _ _ => some stage
  | wait _ _ _ => none

/-- The process that a launch gave. -/
def process? : Event → Option Handle
  | launch _ _ _ (.ok (.process handle)) => some handle
  | launch _ _ _ (.ok (.builtin _)) => none
  | launch _ _ _ (.error _) => none
  | wait _ _ _ => none

/-- The process that was waited for. -/
def waited? : Event → Option Handle
  | launch _ _ _ _ => none
  | wait _ handle _ => some handle

/-- How the process ended, if waiting for it did not fail. -/
def status? : Event → Option WaitStatus
  | launch _ _ _ _ => none
  | wait _ _ (.ok status) => some status
  | wait _ _ (.error _) => none

def Fails : Event → Prop
  | launch _ _ _ (.error _) => True
  | launch _ _ _ (.ok _) => False
  | wait _ _ _ => False

end Event

def launches (log : List Event) : List Stage := log.filterMap Event.stage?

def processes (log : List Event) : List Handle := log.filterMap Event.process?

def waits (log : List Event) : List Handle := log.filterMap Event.waited?

def endings (log : List Event) : List WaitStatus := log.filterMap Event.status?

theorem launches_append (log events : List Event) :
    launches (log ++ events) = launches log ++ launches events := List.filterMap_append

theorem processes_append (log events : List Event) :
    processes (log ++ events) = processes log ++ processes events := List.filterMap_append

theorem waits_append (log events : List Event) : waits (log ++ events) = waits log ++ waits events :=
  List.filterMap_append

theorem endings_append (log events : List Event) :
    endings (log ++ events) = endings log ++ endings events := List.filterMap_append

def recording (l : Launcher σ) : Launcher (σ × List Event) where
  launch stage c := fun (sh, own, log) =>
    let (result, (after, own)) := l.launch stage c (sh, own)
    (result, (after, own, log ++ [.launch sh stage c result]))
  wait handle := fun (sh, own, log) =>
    let (result, (after, own)) := l.wait handle (sh, own)
    (result, (after, own, log ++ [.wait sh handle result]))

end Launcher

/-- What a launch tells the shell to do. -/
def Launched.flow : Launched → Flow
  | process _ => .proceed
  | builtin flow => flow

namespace Supervisor

open Launcher (Event)

/-! ## Requests -/

inductive Request where
  | hasNext
  | execNext
  | finish
  deriving DecidableEq

inductive Answer where
  | hasNext (left : Bool)
  | execNext (result : Except ShellError Flow)
  | finish (statuses : List WaitStatus)

namespace Answer

/-- Nothing is launched after an error or a finish. -/
def Stops : Answer → Prop
  | hasNext _ => False
  | execNext (.ok _) => False
  | execNext (.error _) => True
  | finish _ => True

end Answer

def perform (l : Launcher σ) (s : Supervisor σ) : Request → Answer × Supervisor σ
  | .hasNext => (.hasNext s.hasNext, s)
  | .execNext => (.execNext (execNext l s).1, (execNext l s).2)
  | .finish => (.finish (finish l s).statuses, finish l s)

def run (l : Launcher σ) : List Request → Supervisor σ → List Answer × Supervisor σ
  | [], s => ([], s)
  | request :: rest, s =>
      ((perform l s request).1 :: (run l rest (perform l s request).2).1,
        (run l rest (perform l s request).2).2)

theorem run_append (l : Launcher σ) (first second : List Request) (s : Supervisor σ) :
    (run l (first ++ second) s).2 = (run l second (run l first s).2).2 := by
  induction first generalizing s with
  | nil => rfl
  | cons request rest ih => exact ih (perform l s request).2

/-! ## Recording changes nothing -/

/-- The calls that reached the launcher. -/
def log (s : Supervisor (σ × List Event)) : List Event := s.world.2.2

/-- The supervisor without the log. -/
def forget (s : Supervisor (σ × List Event)) : Supervisor σ :=
  { s with world := (s.world.1, s.world.2.1) }

theorem connect_forget (s : Supervisor (σ × List Event)) :
    s.forget.connect = (s.connect.1, s.connect.2.forget) := by
  unfold connect forget
  dsimp only
  split
  · rfl
  · cases (wire s.pipeline s.world.1.machine).1 <;> rfl

theorem launch_forget (l : Launcher σ) (stage : Stage) (c : Connection)
    (s : Supervisor (σ × List Event)) :
    launch l stage c s.forget =
      ((launch l.recording stage c s).1, (launch l.recording stage c s).2.forget) := by
  obtain ⟨⟨sh, own, log⟩, pipeline, pending, wired, next, halted, launched, statuses⟩ := s
  rcases outcome : l.launch stage c (sh, own) with ⟨cause | handle | flow, after, own'⟩ <;>
    simp only [launch, forget, Launcher.recording, outcome, halt]

theorem execNext_forget (l : Launcher σ) (s : Supervisor (σ × List Event)) :
    execNext l s.forget = ((execNext l.recording s).1, (execNext l.recording s).2.forget) := by
  unfold execNext
  by_cases left : s.hasNext
  · have left' : s.forget.hasNext = true := left
    rw [if_pos left, if_pos left', connect_forget]
    rcases s.connect with ⟨cause | _, t⟩
    · rfl
    · rcases shape : t.pending with _ | ⟨c, pending⟩
      · simp only [forget, shape, halt]
      · rcases stage : t.pipeline.stages[t.next]? with _ | stage'
        · simp only [forget, shape, stage, halt]
        · have same := launch_forget l stage' c { t with pending }
          simp only [forget, shape, stage] at same ⊢
          exact same
  · have left' : ¬ s.forget.hasNext = true := left
    rw [if_neg left, if_neg left']

theorem reap_forget (l : Launcher σ) (s : Supervisor (σ × List Event)) (handle : Handle) :
    reap l s.forget handle = (reap l.recording s handle).forget := by
  obtain ⟨⟨sh, own, log⟩, pipeline, pending, wired, next, halted, launched, statuses⟩ := s
  rcases outcome : l.wait handle (sh, own) with ⟨cause | status, after, own'⟩ <;>
    simp only [reap, forget, Launcher.recording, outcome]

theorem finish_forget (l : Launcher σ) (s : Supervisor (σ × List Event)) :
    finish l s.forget = (finish l.recording s).forget := by
  have folded : ∀ (handles : List Handle) (t : Supervisor (σ × List Event)),
      handles.foldl (reap l) t.forget = (handles.foldl (reap l.recording) t).forget := by
    intro handles
    induction handles with
    | nil => intro t; rfl
    | cons handle handles ih =>
        intro t
        rw [List.foldl_cons, List.foldl_cons, reap_forget, ih]
  exact folded s.launched { s.halt with launched := [] }

theorem perform_forget (l : Launcher σ) (s : Supervisor (σ × List Event)) (request : Request) :
    perform l s.forget request =
      ((perform l.recording s request).1, (perform l.recording s request).2.forget) := by
  cases request with
  | hasNext => rfl
  | execNext => simp only [perform, execNext_forget]
  | finish =>
      simp only [perform, finish_forget]
      rfl

/-- A recorded run answers like the run itself, and leads to the same state. -/
theorem run_forget (l : Launcher σ) (requests : List Request) (s : Supervisor (σ × List Event)) :
    run l requests s.forget =
      ((run l.recording requests s).1, (run l.recording requests s).2.forget) := by
  induction requests generalizing s with
  | nil => rfl
  | cons request rest ih => simp only [run, perform_forget, ih]

end Supervisor

end PipeShell
