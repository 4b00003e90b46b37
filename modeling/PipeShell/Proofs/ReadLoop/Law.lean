import PipeShell.Proofs.ReadLoop.Lines
import PipeShell.Proofs.Session.Development
import PipeShell.Proofs.Session.Survival

/-!
# What the loop evaluates

`course` goes through the input as `ReadLoop.run` does and keeps every evaluation (`run_eq_course`).
The lines that are evaluated are those of the reference `expected`, the history is at any time the
list of them, and the loop ends with the input or with an evaluation: one that asks to exit, or one
that the shell does not survive (`loop_evaluates_expected_lines`).
-/

set_option autoImplicit false

namespace PipeShell

/-- The lines that the history holds. -/
def Shell.past (sh : Shell) : List String := sh.session.history.entries

namespace ReadLoop

variable {σ : Type}

/-! ## Evaluations -/

/-- Whether the loop ends with an evaluation.  An error ends it only if the shell is gone. -/
def endingOf : Except ShellError Flow → Option Ending
  | .ok .proceed => none
  | .ok .exit => some .exited
  | .error .aborted => some .aborted
  | .error _ => none

theorem result_of_aborted {result : Except ShellError Flow}
    (aborted : endingOf result = some .aborted) : result = .error .aborted := by
  rcases result with cause | flow
  · cases cause <;> first | rfl | cases aborted
  · cases flow <;> cases aborted

/-- A call of `eval`: the line, the world before, and what came of it. -/
structure Evaluation (σ : Type) where
  line : String
  before : Shell × σ
  result : Except ShellError Flow
  after : Shell × σ

namespace Evaluation

def ending (e : Evaluation σ) : Option Ending := endingOf e.result

/-- Before it is evaluated, a line is remembered. -/
def perform (l : Launcher σ) (line : String) (world : Shell × σ) : Evaluation σ :=
  let before := (world.1.remember line, world.2)
  let outcome := eval l line before
  { line, before, result := outcome.1, after := outcome.2 }

end Evaluation

/-- What `evaluate` adds to an evaluation is the report of an error. -/
theorem ending_of_evaluate {l : Launcher σ} {line : String} {world world' : Shell × σ}
    {ending : Option Ending} (outcome : evaluate l line world = (ending, world')) :
    (Evaluation.perform l line world).ending = ending ∧
      world'.1.past = (Evaluation.perform l line world).after.1.past := by
  simp only [Evaluation.ending, Evaluation.perform]
  rw [evaluate] at outcome
  generalize eval l line (world.1.remember line, world.2) = evaluated at outcome ⊢
  rcases evaluated with ⟨cause | flow, sh, own⟩
  · cases cause <;> cases outcome <;> exact ⟨rfl, rfl⟩
  · cases flow <;> cases outcome <;> exact ⟨rfl, rfl⟩

/-! ## The course of a loop -/

/-- All evaluations of a loop, and how it ends. -/
structure Course (σ : Type) where
  evaluations : List (Evaluation σ)
  ending : Ending
  world : Shell × σ

/-- Reads and evaluates lines until the end, and keeps every evaluation. -/
def course (l : Launcher σ) (interactive : Bool) (input : Bytes) (world : Shell × σ) : Course σ :=
  let sh := world.1.ask interactive
  match _ : nextLine input with
  | none =>
    { evaluations := [], ending := .inputEnded
      world := (if interactive then sh.print "\n" else sh, world.2) }
  | some (line, rest) =>
    let resolved := resolve sh.session.history line rest
    let sh := sh.printAll resolved.shown
    match resolved.line with
    | none => course l interactive resolved.rest (sh, world.2)
    | some line =>
      let evaluation := Evaluation.perform l line (sh, world.2)
      match evaluate l line (sh, world.2) with
      | (some ending, world) => { evaluations := [evaluation], ending, world }
      | (none, world) =>
        let others := course l interactive resolved.rest world
        { others with evaluations := evaluation :: others.evaluations }
termination_by input.length
decreasing_by
  all_goals
    exact Nat.lt_of_le_of_lt (length_resolve_le _ _ _) (length_nextLine_lt ‹_›)

section Steps

variable {l : Launcher σ} {interactive : Bool} {input rest : Bytes} {line : String}
  {world : Shell × σ}

theorem run_of_ended (ended : nextLine input = none) : run l interactive input world =
    (.inputEnded, (if interactive then (world.1.ask interactive).print "\n"
      else world.1.ask interactive, world.2)) := by
  rw [run]
  dsimp only
  split
  · rfl
  · next taken =>
      rw [ended] at taken
      cases taken

/-- One round of the loop. -/
theorem run_of_taken (taken : nextLine input = some (line, rest)) : run l interactive input world =
    let resolved := resolve (world.1.ask interactive).session.history line rest
    let sh := (world.1.ask interactive).printAll resolved.shown
    match resolved.line with
    | none => run l interactive resolved.rest (sh, world.2)
    | some line =>
      match evaluate l line (sh, world.2) with
      | (some ending, world) => (ending, world)
      | (none, world) => run l interactive resolved.rest world := by
  rw [run]
  dsimp only
  split
  · next ended =>
      rw [taken] at ended
      cases ended
  · next found =>
      obtain ⟨rfl, rfl⟩ := Prod.mk.inj (Option.some.inj (taken.symm.trans found))
      rfl

/-- A line that is all of the input is evaluated, and there is nothing else to do. -/
theorem world_run_of_line (only : nextLine input = some (line, []))
    (plain : History.wantsCompletion line = false) :
    (run l false input world).2 = (evaluate l line world).2 := by
  have itself : resolve (world.1.ask false).session.history line [] =
      { line := some line, shown := [], rest := [] } := by
    rw [resolve, plain, if_neg Bool.false_ne_true]
  rw [run_of_taken only, itself]
  show (match evaluate l line world with
    | (some ending, world) => (ending, world)
    | (none, world) => run l false [] world).2 = _
  rcases evaluate l line world with ⟨_ | ending, after⟩
  · exact congrArg Prod.snd (run_of_ended rfl)
  · rfl

end Steps

/-- The loop takes this course. -/
theorem run_eq_course (l : Launcher σ) (interactive : Bool) (input : Bytes) (world : Shell × σ) :
    run l interactive input world =
      ((course l interactive input world).ending, (course l interactive input world).world) := by
  fun_induction course l interactive input world with
  | case1 input world sh ended => exact run_of_ended ended
  | case2 input world sh line rest taken resolved sh' passed ih =>
      rw [run_of_taken taken]
      dsimp only
      split
      · exact ih
      · next chosen => cases passed.symm.trans chosen
  | case3 input world sh line rest taken resolved sh' chosen named evaluation ending world'
      stopped =>
      rw [run_of_taken taken]
      dsimp only
      split
      · next passed => cases named.symm.trans passed
      · next found =>
          obtain rfl := Option.some.inj (named.symm.trans found)
          -- the course and the loop look at one and the same evaluation
          split
          · next found =>
              cases stopped.symm.trans found
              rfl
          · next found => cases stopped.symm.trans found
  | case4 input world sh line rest taken resolved sh' chosen named evaluation world' onward others
      ih =>
      rw [run_of_taken taken]
      dsimp only
      split
      · next passed => cases named.symm.trans passed
      · next found =>
          obtain rfl := Option.some.inj (named.symm.trans found)
          split
          · next found => cases onward.symm.trans found
          · next found =>
              cases onward.symm.trans found
              exact ih

/-! ## The law -/

/-- What a loop over the input does that begins with `past` in the history. -/
structure Lawful (l : Launcher σ) (past lines : List String) (c : Course σ) : Prop where
  performed : ∀ e ∈ c.evaluations, eval l e.line e.before = (e.result, e.after)
  /-- The lines passed to `eval` are those of the reference. -/
  chosen : c.evaluations.map (·.line) = expected past lines (c.evaluations.map (·.ending))
  /-- The history holds just the lines up to the one that is evaluated. -/
  remembered : ∀ earlier e later, c.evaluations = earlier ++ e :: later →
    e.before.1.past = past ++ (earlier ++ [e]).map (·.line) ∧ e.after.1.past = e.before.1.past
  kept : c.world.1.past = past ++ c.evaluations.map (·.line)
  proper : ∀ line ∈ c.world.1.past, History.wantsCompletion line = false
  /-- The loop ends with the input, or with the only evaluation that ends it. -/
  ended : (c.ending = .inputEnded ∧ ∀ e ∈ c.evaluations, e.ending = none) ∨
    ∃ earlier last, c.evaluations = earlier ++ [last] ∧ (∀ e ∈ earlier, e.ending = none) ∧
      last.ending = some c.ending

section Rounds

variable {l : Launcher σ} {past lines : List String}

/-- The input has no line left. -/
theorem lawful_nil {world : Shell × σ} (start : world.1.past = past)
    (proper : ∀ line ∈ past, History.wantsCompletion line = false) :
    Lawful l past [] { evaluations := [], ending := .inputEnded, world } where
  performed _ member := by cases member
  chosen := (expected_nil past _).symm
  remembered earlier _ _ split := by cases earlier <;> cases split
  kept := by rw [start, List.map_nil, List.append_nil]
  proper := by rwa [start]
  ended := .inl ⟨rfl, fun _ member => by cases member⟩

/-- A line stands for nothing. -/
theorem Lawful.passed {line : String} {rest others : List String} {c : Course σ}
    (lawful : Lawful l past others c) (outcome : choose ⟨past⟩ line rest = (none, others)) :
    Lawful l past (line :: rest) c :=
  { lawful with chosen := by rw [expected_of_none outcome, lawful.chosen] }

/-- The evaluation of the line behind `past`. -/
structure Evaluation.Behind (l : Launcher σ) (past : List String) (e : Evaluation σ) : Prop where
  performed : eval l e.line e.before = (e.result, e.after)
  before : e.before.1.past = past ++ [e.line]
  after : e.after.1.past = e.before.1.past

theorem Evaluation.behind_perform (runs : l.RunsBuiltins) (develops : l.Develops) (line : String)
    (world : Shell × σ) : (Evaluation.perform l line world).Behind l world.1.past where
  performed := rfl
  before := rfl
  after := congrArg History.entries
    (develops_eval runs develops line (world.1.remember line, world.2)).history

variable {line : String} {rest others : List String} {e : Evaluation σ} {world : Shell × σ}

theorem Evaluation.Behind.proper (behind : e.Behind l past)
    (proper : ∀ line ∈ past, History.wantsCompletion line = false)
    (outcome : choose ⟨past⟩ line rest = (some e.line, others)) :
    ∀ line ∈ e.after.1.past, History.wantsCompletion line = false := by
  rw [behind.after, behind.before]
  exact List.forall_mem_append.mpr
    ⟨proper, List.forall_mem_singleton.mpr (wantsCompletion_of_choose proper outcome)⟩

/-- A line is evaluated, and that is the end. -/
theorem Evaluation.Behind.stopped {ending : Ending} (behind : e.Behind l past)
    (proper : ∀ line ∈ past, History.wantsCompletion line = false)
    (outcome : choose ⟨past⟩ line rest = (some e.line, others)) (stops : e.ending = some ending)
    (kept : world.1.past = e.after.1.past) :
    Lawful l past (line :: rest) { evaluations := [e], ending, world } where
  performed := List.forall_mem_singleton.mpr behind.performed
  chosen := by
    rw [List.map_singleton, List.map_singleton, expected_of_some outcome, stops, if_neg (by simp)]
  remembered earlier other later split := by
    obtain ⟨rfl, rfl, rfl⟩ : earlier = [] ∧ e = other ∧ later = [] := by
      cases earlier <;> simp_all
    exact ⟨behind.before, behind.after⟩
  kept := by rw [kept, behind.after, behind.before, List.map_singleton]
  proper := kept ▸ behind.proper proper outcome
  ended := .inr ⟨[], e, rfl, (fun _ member => by cases member), stops⟩

/-- A line is evaluated, and the loop goes on. -/
theorem Evaluation.Behind.onward {c : Course σ} (behind : e.Behind l past)
    (outcome : choose ⟨past⟩ line rest = (some e.line, others)) (goes : e.ending = none)
    (lawful : Lawful l (past ++ [e.line]) others c) :
    Lawful l past (line :: rest) { c with evaluations := e :: c.evaluations } where
  performed := List.forall_mem_cons.mpr ⟨behind.performed, lawful.performed⟩
  chosen := by
    rw [List.map_cons, List.map_cons, expected_of_some outcome, if_pos goes, lawful.chosen]
  remembered earlier other later split := by
    cases earlier with
    | nil =>
        obtain ⟨rfl, -⟩ := List.cons.inj split
        exact ⟨behind.before, behind.after⟩
    | cons first earlier =>
        obtain ⟨rfl, others⟩ := List.cons.inj split
        obtain ⟨before, after⟩ := lawful.remembered earlier other later others
        exact ⟨by rw [before]; simp, after⟩
  kept := by
    rw [lawful.kept, List.map_cons, List.append_assoc, List.singleton_append]
  proper := lawful.proper
  ended := by
    rcases lawful.ended with ⟨ended, none⟩ | ⟨earlier, last, split, none, stops⟩
    · exact .inl ⟨ended, List.forall_mem_cons.mpr ⟨goes, none⟩⟩
    · exact .inr ⟨e :: earlier, last, congrArg (e :: ·) split,
        List.forall_mem_cons.mpr ⟨goes, none⟩, stops⟩

end Rounds

theorem session_ask (sh : Shell) (interactive : Bool) :
    (sh.ask interactive).session = sh.session := by
  unfold Shell.ask
  split <;> rfl

theorem session_printAll (sh : Shell) (texts : List String) :
    (sh.printAll texts).session = sh.session := by
  rw [Shell.printAll]
  induction texts generalizing sh with
  | nil => rfl
  | cons text texts ih => exact ih (sh.print text)

/-- In a round of the loop nothing but an evaluation changes the session. -/
theorem choose_of_resolve (sh : Shell) (interactive : Bool) (line : String) (rest : Bytes) :
    choose ⟨sh.past⟩ line (inputLines rest) =
      ((resolve (sh.ask interactive).session.history line rest).line,
        inputLines (resolve (sh.ask interactive).session.history line rest).rest) := by
  rw [session_ask]
  exact choose_inputLines sh.session.history line rest

theorem past_ask_printAll (sh : Shell) (interactive : Bool) (texts : List String) :
    ((sh.ask interactive).printAll texts).past = sh.past := by
  rw [Shell.past, session_printAll, session_ask, Shell.past]

/-- Every course is lawful, if the history holds no line that asks for completion. -/
theorem lawful_course {l : Launcher σ} (runs : l.RunsBuiltins) (develops : l.Develops)
    (interactive : Bool) (input : Bytes) (world : Shell × σ)
    (proper : ∀ line ∈ world.1.past, History.wantsCompletion line = false) :
    Lawful l world.1.past (inputLines input) (course l interactive input world) := by
  -- one case for each way a round can go; only an evaluation moves the past on
  fun_induction course l interactive input world with
  | case1 input world sh ended =>
      rw [inputLines_of_ended ended]
      have same : sh.past = world.1.past := past_ask_printAll world.1 interactive []
      refine lawful_nil ?_ proper
      dsimp only
      split <;> exact same
  | case2 input world sh line rest taken resolved sh' passed ih =>
      have same : sh'.past = world.1.past := past_ask_printAll ..
      have chosen := choose_of_resolve world.1 interactive line rest
      rw [inputLines_of_nextLine taken]
      rw [same] at ih
      exact (ih proper).passed (chosen.trans (by rw [passed]))
  | case3 input world sh line rest taken resolved sh' chosen named evaluation ending world'
      stopped =>
      have same : sh'.past = world.1.past := past_ask_printAll ..
      have behind : evaluation.Behind l world.1.past :=
        same ▸ Evaluation.behind_perform runs develops chosen (sh', world.2)
      have outcome := choose_of_resolve world.1 interactive line rest
      obtain ⟨stops, kept⟩ := ending_of_evaluate stopped
      rw [inputLines_of_nextLine taken]
      exact behind.stopped proper (outcome.trans (by rw [named]; rfl)) stops kept
  | case4 input world sh line rest taken resolved sh' chosen named evaluation world' onward others
      ih =>
      have same : sh'.past = world.1.past := past_ask_printAll ..
      have behind : evaluation.Behind l world.1.past :=
        same ▸ Evaluation.behind_perform runs develops chosen (sh', world.2)
      have outcome := choose_of_resolve world.1 interactive line rest
      obtain ⟨goes, kept⟩ := ending_of_evaluate onward
      have grown : world'.1.past = world.1.past ++ [chosen] :=
        kept.trans (behind.after.trans behind.before)
      have proper' : ∀ line ∈ world'.1.past, History.wantsCompletion line = false :=
        kept ▸ behind.proper proper (outcome.trans (by rw [named]; rfl))
      rw [inputLines_of_nextLine taken]
      exact behind.onward (outcome.trans (by rw [named]; rfl)) goes (grown ▸ ih proper')

/-! ## Sessions -/

/-- A session starts without a past. -/
theorem past_start {settings : Settings} {machine : Machine} {sh : Shell}
    (started : Shell.start settings machine = some sh) : sh.past = [] := by
  obtain ⟨first, added, rfl⟩ := Option.map_eq_some_iff.mp started
  obtain ⟨env, rfl⟩ := Shell.addAllToPath_spec added
  obtain ⟨calls, log, adopted⟩ := Shell.adoptAliases_spec _ settings.aliases
  rw [adopted]
  rfl

/-- From its start on, a session evaluates the lines that the reference chooses from its input.  The
loop ends with the input, with a line that asks to exit, or with one that adds a NUL to the search
list. -/
theorem loop_evaluates_expected_lines (settings : Settings) (machine : Machine) (sh : Shell)
    (started : Shell.start settings machine = some sh) (sh' : Shell)
    (same : sh'.session = sh.session) (order : Handshake) (interactive : Bool) (input : Bytes)
    (ended : List WaitStatus) :
    let c := course (Job.launcher order) interactive input (sh', ended)
    run (Job.launcher order) interactive input (sh', ended) = (c.ending, c.world) ∧
      Lawful (Job.launcher order) [] (inputLines input) c ∧
      ∀ e ∈ c.evaluations, e.ending = some .aborted →
        ∃ p, compile e.before.1.context e.line = .ok p ∧ ∃ stage ∈ p.stages, stage.AddsNul := by
  intro c
  have empty : sh'.past = [] := by rw [Shell.past, same, ← past_start started, Shell.past]
  have lawful : Lawful (Job.launcher order) [] (inputLines input) c :=
    empty ▸ lawful_course (Job.runsBuiltins order) (Job.develops order) interactive input
      (sh', ended) (by simp [empty])
  refine ⟨run_eq_course .., lawful, fun e member gone => ?_⟩
  have fatal : (eval (Job.launcher order) e.line e.before).1 = .error .aborted := by
    rw [lawful.performed e member]
    exact result_of_aborted gone
  exact addsNul_of_eval fatal

theorem loop_evaluates_expected_lines_of_completion :
    Shell.start { prompt := "$ " } Wiring.bareMachine = some bareShell ∧
    inputLines (Text.encode "pwd\np\\\\\n\nbye\nhelp") = ["pwd", "p\\\\", "", "bye", "help"] ∧
    ∃ c : Course (List WaitStatus), run (Job.launcher .joinAdoptExec) false
        (Text.encode "pwd\np\\\\\n\nbye\nhelp") (bareShell, []) = (c.ending, c.world) ∧
      Lawful (Job.launcher .joinAdoptExec) [] ["pwd", "p\\\\", "", "bye", "help"] c ∧
      c.ending = .exited ∧ c.world.1.past = ["pwd", "pwd", "bye"] := by
  have started : Shell.start { prompt := "$ " } Wiring.bareMachine = some bareShell := rfl
  have lines : inputLines (Text.encode "pwd\np\\\\\n\nbye\nhelp") =
      ["pwd", "p\\\\", "", "bye", "help"] := by decide +kernel
  obtain ⟨taken, lawful, -⟩ := loop_evaluates_expected_lines _ _ bareShell started bareShell rfl
    .joinAdoptExec false (Text.encode "pwd\np\\\\\n\nbye\nhelp") []
  have ends : (run (Job.launcher .joinAdoptExec) false
      (Text.encode "pwd\np\\\\\n\nbye\nhelp") (bareShell, [])).1 = .exited := by decide +kernel
  have past : (run (Job.launcher .joinAdoptExec) false
      (Text.encode "pwd\np\\\\\n\nbye\nhelp") (bareShell, [])).2.1.past =
        ["pwd", "pwd", "bye"] := by decide +kernel
  rw [taken] at ends past
  rw [lines] at lawful
  exact ⟨started, lines, _, taken, lawful, ends, past⟩

/-- Neither an exit nor the end of the input: a NUL for the search list ends the loop before the
next line, and a saved one keeps the session from its start. -/
theorem loop_ends_with_nul :
    inputLines (Text.encode "set path \x00\nbye\n") = ["set path \x00", "bye"] ∧
    (run (Job.launcher .joinAdoptExec) false (Text.encode "set path \x00\nbye\n")
      (bareShell, [])).1 = .aborted ∧
    (run (Job.launcher .joinAdoptExec) false (Text.encode "set path \x00\nbye\n")
      (bareShell, [])).2.1.past = ["set path \x00"] ∧
    (Shell.start { paths := ["\x00"] } Wiring.bareMachine).isNone := by
  decide +kernel

end ReadLoop

end PipeShell
