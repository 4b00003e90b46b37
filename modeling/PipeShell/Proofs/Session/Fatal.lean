import PipeShell.Proofs.SearchPath.Sessions

/-!
# Lines that the shell does not survive

What the shell stores in its environment is the path of a directory it is in and the search list.
The first holds no NUL, since no name of a file does (`admits_workingDirectory`).  The second is
refused just when a directory with a NUL is added (`Shell.addAllToPath_eq_none_iff`), and `set path`
is the only builtin to add one (`Builtin.aborted_run_iff`).

A line is evaluated to a flow or an error of its own unless it is such a call (`aborted_eval_iff`),
and every line leaves `PATH` free of NULs (`pathNulFree_eval`).  So it is these calls, and
directories with a NUL in the settings, that the shell is lost to, and nothing else
(`only_nul_is_fatal`).
-/

set_option autoImplicit false

namespace PipeShell

/-! ## The working directory -/

namespace FileSystem

/-- No entry of a directory has a name with a NUL. -/
def NamesNulFree (fs : FileSystem) : Prop :=
  ∀ id parent entries removed, fs.node? id = some (.directory parent entries removed) →
    ∀ entry ∈ entries, 0 ∉ entry.1

theorem nulFree_of_climb {fs : FileSystem} (clean : fs.NamesNulFree) {fuel id : Nat}
    {below names : List Bytes} (free : ∀ name ∈ below, 0 ∉ name)
    (climbed : fs.climb fuel id below = some names) : ∀ name ∈ names, 0 ∉ name := by
  induction fuel generalizing id below with
  | zero => cases climbed
  | succ fuel ih =>
      rw [climb] at climbed
      split at climbed
      · obtain rfl := Option.some.inj climbed
        exact free
      · split at climbed
        · next parent _ _ _ =>
            split at climbed
            · next entries _ held =>
                split at climbed
                · next name _ found =>
                    have named := clean parent _ entries _ held _ (List.mem_of_find?_eq_some found)
                    exact ih (List.forall_mem_cons.mpr ⟨named, free⟩) climbed
                · cases climbed
            · cases climbed
        · cases climbed

theorem nulFree_of_pathOf {fs : FileSystem} (clean : fs.NamesNulFree) {id : Nat} {path : Bytes}
    (named : fs.pathOf id = .ok path) : 0 ∉ path := by
  rw [pathOf] at named
  split at named
  · next names climbed =>
      have free := nulFree_of_climb clean (List.forall_mem_nil _) climbed
      obtain rfl := Except.ok.inj named
      have apart : (0 : UInt8) ≠ Path.slash := by decide
      rw [Path.absolute, List.mem_cons, not_or]
      refine ⟨apart, fun zero => ?_⟩
      rcases Text.mem_intercalate zero with same | ⟨name, member, holds⟩
      · exact apart same
      · exact free name member holds
  · cases named

end FileSystem

/-- What `cd` stores is never refused. -/
theorem admits_workingDirectory {m : Machine} (clean : m.files.NamesNulFree) {path : Bytes}
    (here : m.workingDirectory = .ok path) :
    Environment.admits Environment.directoryName path = true := by
  have absent : 0 ∉ path := FileSystem.nulFree_of_pathOf clean here
  simp [Environment.admits, absent, Environment.directoryName]

/-! ## The search list -/

theorem Environment.addToPath_eq_none (env : Environment) {directory : String}
    (holds : ¬ Text.NulFree directory) : env.addToPath directory = none := by
  have kept : ¬ Text.NulFree (SearchPath.extended (env.get? pathName) directory) := by
    unfold SearchPath.extended
    split
    · split
      · exact holds
      · exact fun free => holds (Text.nulFree_append.mp free).2
    · exact holds
  have zero := (Text.zero_mem_encode_iff _).mpr kept
  have refused : admits pathName
      (Text.encode (SearchPath.extended (env.get? pathName) directory)) = false := by
    simp [admits, zero]
  show env.assign pathName
    (Text.encode (SearchPath.extended (env.get? pathName) directory)) = none
  rw [assign, refused]
  rfl

namespace Shell

variable {sh : Shell} {directories : List String}

theorem addAllToPath_eq_none (holds : ∃ directory ∈ directories, ¬ Text.NulFree directory) :
    sh.addAllToPath directories = none := by
  induction directories generalizing sh with
  | nil =>
      obtain ⟨directory, member, -⟩ := holds
      cases member
  | cons first others ih =>
      rw [addAllToPath, List.foldlM_cons]
      cases added : sh.addToPath first with
      | none => rfl
      | some between =>
          have free : Text.NulFree first := by
            by_contra refused
            rw [addToPath, Environment.addToPath_eq_none _ refused] at added
            cases added
          obtain ⟨directory, member, refused⟩ := holds
          refine ih ⟨directory, ?_, refused⟩
          rcases List.mem_cons.mp member with rfl | later
          · exact absurd free refused
          · exact later

theorem addAllToPath_eq_none_iff (clean : sh.machine.env.PathNulFree) :
    sh.addAllToPath directories = none ↔ ∃ directory ∈ directories, ¬ Text.NulFree directory :=
  ⟨exists_nul_of_addAllToPath clean, addAllToPath_eq_none⟩

theorem start_eq_none_iff {settings : Settings} {machine : Machine}
    (clean : machine.env.PathNulFree) : start settings machine = none ↔
      ∃ directory ∈ settings.paths, ¬ Text.NulFree directory := by
  rw [start, Option.map_eq_none_iff]
  exact addAllToPath_eq_none_iff clean

theorem pathNulFree_of_start {settings : Settings} {machine : Machine}
    (clean : machine.env.PathNulFree) (started : start settings machine = some sh) :
    sh.machine.env.PathNulFree := by
  have free : ∀ directory ∈ settings.paths, Text.NulFree directory := by
    by_contra holds
    push Not at holds
    rw [(start_eq_none_iff clean).mpr holds] at started
    cases started
  obtain ⟨sh', started', settled⟩ := settled_start free clean
  obtain rfl := Option.some.inj (started.symm.trans started')
  exact settled.search

end Shell

/-! ## Builtins -/

namespace Builtin

variable {b : Builtin} {argv : List String} {sink : Sink} {sh : Shell}

theorem Outcome.result_eq_aborted_iff {outcome : Outcome} :
    outcome.result = .error .aborted ↔ outcome = .aborted := by
  cases outcome <;> simp [Outcome.result]

/-- A call that ends the shell has not changed it. -/
theorem run_of_refused {directories : List String} (args : argv.drop 1 = "path" :: directories)
    (refused : sh.addAllToPath directories = none) :
    set.run argv sink sh = (.aborted, sink, sh) := by
  cases directories with
  | nil => cases refused
  | cons first others => simp only [run, args, runSet, refused]

theorem aborted_run_iff (clean : sh.machine.env.PathNulFree) :
    (b.run argv sink sh).1 = .aborted ↔
      b = set ∧ ∃ directory ∈ directoriesOf (argv.drop 1), ¬ Text.NulFree directory := by
  constructor
  · intro aborted
    obtain ⟨rfl, directories, args, refused⟩ := addAllToPath_of_aborted aborted
    rw [args, directoriesOf]
    exact ⟨rfl, Shell.exists_nul_of_addAllToPath clean refused⟩
  · rintro ⟨rfl, holds⟩
    unfold directoriesOf at holds
    split at holds
    · next directories args => rw [run_of_refused args (Shell.addAllToPath_eq_none holds)]
    · obtain ⟨directory, member, -⟩ := holds
      cases member

theorem pathNulFree_run (clean : sh.machine.env.PathNulFree) :
    (b.run argv sink sh).2.2.machine.env.PathNulFree := by
  by_cases lost : (b.run argv sink sh).1 = .aborted
  · obtain ⟨rfl, directories, args, refused⟩ := addAllToPath_of_aborted lost
    rwa [run_of_refused args refused]
  · have free : ∀ directory ∈ BuiltinCall.adds ⟨b, argv, sink⟩, Text.NulFree directory := by
      intro directory member
      by_contra holds
      rw [BuiltinCall.adds] at member
      split at member
      · next listing => exact lost ((aborted_run_iff clean).mpr ⟨listing, directory, member, holds⟩)
      · cases member
    exact Shell.pathNulFree_of_adds clean free (Shell.survives_afterCall clean free).2

end Builtin

/-! ## Lines -/

/-- In this session the line calls `set path` with a directory that has a NUL. -/
def Context.AddsNul (ctx : Context) (line : String) : Prop :=
  ∃ argv, ctx.Calls line .set argv ∧
    ∃ directory ∈ Builtin.directoriesOf (argv.drop 1), ¬ Text.NulFree directory

section Lines

variable (order : Handshake) {line : String} {world : Shell × List WaitStatus}

/-- Every line but such a call comes to a flow or an error. -/
theorem aborted_eval_iff (clean : world.1.machine.env.PathNulFree) :
    (eval (Job.launcher order) line world).1 = .error .aborted ↔
      world.1.context.AddsNul line := by
  constructor
  · intro aborted
    obtain ⟨p, compiled, stage, member, adds⟩ := addsNul_of_eval aborted
    obtain ⟨b, -, calls⟩ := calls_of_builtin compiled member adds.name.1
    have lost := (failure_eval_of_calls order calls .aborted).mp aborted
    rw [Builtin.Outcome.result_eq_aborted_iff, Builtin.aborted_run_iff clean] at lost
    obtain ⟨rfl, holds⟩ := lost
    exact ⟨stage.argv, calls, holds⟩
  · rintro ⟨argv, calls, holds⟩
    rw [failure_eval_of_calls order calls, Builtin.Outcome.result_eq_aborted_iff,
      Builtin.aborted_run_iff clean]
    exact ⟨rfl, holds⟩

theorem Environment.PathNulFree.stays {sh sh' : Shell} (clean : sh.machine.env.PathNulFree)
    (stays : sh.Stays sh') : sh'.machine.env.PathNulFree := by
  rw [Environment.PathNulFree, stays.env]
  exact clean

theorem pathNulFree_eval (line : String) (clean : world.1.machine.env.PathNulFree) :
    (eval (Job.launcher order) line world).2.1.machine.env.PathNulFree := by
  rcases stays_or_calls_eval order line world with stays | ⟨b, argv, calls⟩
  · exact clean.stays stays
  · have called : (b.run argv {} world.1).2.2.machine.env.PathNulFree :=
      Builtin.pathNulFree_run clean
    exact called.stays (stays_eval_of_calls order calls)

end Lines

/-! ## The loop -/

namespace ReadLoop

theorem pathNulFree_before (order : Handshake) (interactive : Bool) (input : Bytes)
    (world : Shell × List WaitStatus) (clean : world.1.machine.env.PathNulFree) :
    ∀ e ∈ (course (Job.launcher order) interactive input world).evaluations,
      e.before.1.machine.env.PathNulFree :=
  holds_before_evaluations (P := fun sh => sh.machine.env.PathNulFree)
    Environment.PathNulFree.stays order (fun line _ held => pathNulFree_eval order line held)
    interactive input world clean

/-- The loop ends so with the first such call, and with nothing else. -/
theorem aborted_course_iff (order : Handshake) (interactive : Bool) (input : Bytes)
    (world : Shell × List WaitStatus) (clean : world.1.machine.env.PathNulFree)
    (proper : ∀ line ∈ world.1.past, History.wantsCompletion line = false) :
    let c := course (Job.launcher order) interactive input world
    c.ending = .aborted ↔ ∃ e ∈ c.evaluations, e.before.1.context.AddsNul e.line := by
  intro c
  have lawful : Lawful (Job.launcher order) world.1.past (inputLines input) c :=
    lawful_course (Job.runsBuiltins order) (Job.develops order) interactive input world proper
  have fatal : ∀ e ∈ c.evaluations,
      e.ending = some .aborted ↔ e.before.1.context.AddsNul e.line := by
    intro e member
    rw [← aborted_eval_iff order (pathNulFree_before order interactive input world clean e member),
      lawful.performed e member]
    constructor
    · exact result_of_aborted
    · intro aborted
      exact congrArg endingOf aborted
  constructor
  · intro aborted
    rcases lawful.ended with ⟨ended, -⟩ | ⟨earlier, last, split, -, stops⟩
    · cases ended.symm.trans aborted
    · have member : last ∈ c.evaluations := by simp [split]
      exact ⟨last, member, (fatal last member).mp (stops.trans (congrArg some aborted))⟩
  · rintro ⟨e, member, adds⟩
    have lost := (fatal e member).mpr adds
    rcases lawful.ended with ⟨-, goes⟩ | ⟨earlier, last, split, goes, stops⟩
    · cases (goes e member).symm.trans lost
    · rw [split, List.mem_append] at member
      rcases member with before | here
      · cases (goes e before).symm.trans lost
      · obtain rfl := List.mem_singleton.mp here
        exact Option.some.inj (stops.symm.trans lost)

end ReadLoop

/-! ## Sessions -/

open ReadLoop (course run)

/-- A session is lost at its start to a directory with a NUL in its settings, and later to a line
that adds one to the search list.  Nothing else is the end of it: any other settings start a
session, any other line comes to a flow or an error, and the directory that `cd` stores has no NUL
if no name of a file has one. -/
theorem only_nul_is_fatal (settings : Settings) (machine : Machine)
    (clean : machine.env.PathNulFree) :
    (Shell.start settings machine = none ↔
      ∃ directory ∈ settings.paths, ¬ Text.NulFree directory) ∧
    (∀ sh, Shell.start settings machine = some sh → sh.machine.env.PathNulFree ∧
      ∀ order interactive input,
        (run (Job.launcher order) interactive input (sh, [])).1 = .aborted ↔
          ∃ e ∈ (course (Job.launcher order) interactive input (sh, [])).evaluations,
            e.before.1.context.AddsNul e.line) ∧
    ∀ order line (world : Shell × List WaitStatus), world.1.machine.env.PathNulFree →
      let outcome := eval (Job.launcher order) line world
      (outcome.1 = .error .aborted ↔ world.1.context.AddsNul line) ∧
        outcome.2.1.machine.env.PathNulFree ∧
        (outcome.2.1.machine.files.NamesNulFree →
          ∀ path, outcome.2.1.machine.workingDirectory = .ok path →
            Environment.admits Environment.directoryName path = true) := by
  refine ⟨Shell.start_eq_none_iff clean, fun sh started => ?_, fun order line world held => ?_⟩
  · have held := Shell.pathNulFree_of_start clean started
    have proper : ∀ line ∈ sh.past, History.wantsCompletion line = false := by
      simp [ReadLoop.past_start started]
    refine ⟨held, fun order interactive input => ?_⟩
    rw [ReadLoop.run_eq_course]
    exact ReadLoop.aborted_course_iff order interactive input (sh, []) held proper
  · exact ⟨aborted_eval_iff order held, pathNulFree_eval order line held,
      fun named path here => admits_workingDirectory named here⟩

theorem only_nul_is_fatal_of_opt :
    Wiring.bareMachine.env.PathNulFree ∧ bareShell.machine.env.PathNulFree ∧
    Shell.start { paths := ["/opt"] } Wiring.bareMachine ≠ none ∧
    ¬ bareShell.context.AddsNul "set path /opt" ∧
    bareShell.context.AddsNul "set path a\x00b" := by
  have clean : Wiring.bareMachine.env.PathNulFree := by
    intro list bound
    cases bound
  obtain ⟨starts, -, lines⟩ := only_nul_is_fatal { paths := ["/opt"] } Wiring.bareMachine clean
  refine ⟨clean, clean, ?_, ?_, ?_⟩
  · rw [ne_eq, starts]
    decide
  · rw [← (lines .joinAdoptExec "set path /opt" (bareShell, []) clean).1]
    decide +kernel
  · rw [← (lines .joinAdoptExec "set path a\x00b" (bareShell, []) clean).1]
    decide +kernel

/-- Settings that can be read, and a line that can be typed. -/
theorem session_is_lost_to_nul :
    (Settings.parse? "paths = [\"a\\u0000b\"]").map (·.paths) = some ["a\x00b"] ∧
    (Shell.start { paths := ["a\x00b"] } Wiring.bareMachine).isNone = true ∧
    (eval (Job.launcher .joinAdoptExec) "set path a\x00b" (bareShell, [])).1 =
      .error .aborted := by
  decide +kernel

end PipeShell
