import PipeShell.Proofs.Evaluation
import PipeShell.Proofs.Session.Builtins
import PipeShell.Proofs.Text.Encoding

/-!
# What the shell does not survive

No value in the environment can hold a NUL, and the shell does not survive the attempt to store one.
The search list can always grow by directories without a NUL (`Shell.addAllToPath_of_nulFree`), and
to let it grow by others there is only the builtin `set`: a line after which the shell is gone has a
stage that does this (`addsNul_of_eval`).
-/

set_option autoImplicit false

namespace PipeShell

/-! ## The search list -/

namespace Environment

variable {env : Environment} {directory : String}

/-- The search list can grow: no NUL in it keeps it from being stored again. -/
def PathNulFree (env : Environment) : Prop :=
  ∀ list, env.get? pathName = some list → 0 ∉ list

theorem nulFree_of_text? {old : String} (clean : env.PathNulFree)
    (set : env.text? pathName = some old) : Text.NulFree old := by
  obtain ⟨list, bound, decoded⟩ := Option.bind_eq_some_iff.mp set
  have encoded := Text.encode_of_decode? decoded
  by_contra holds
  -- what reads as text is the encoding of that text
  exact clean list bound (encoded ▸ (Text.zero_mem_encode_iff old).mpr holds)

theorem assign_path {list : String} (free : Text.NulFree list) :
    ∃ env', env.assign pathName (Text.encode list) = some env' ∧ env'.PathNulFree := by
  have absent : 0 ∉ Text.encode list := fun zero => (Text.zero_mem_encode_iff list).mp zero free
  have admitted : admits pathName (Text.encode list) = true := by
    simp [admits, absent, pathName]
  refine ⟨env.insert pathName (Text.encode list), by rw [assign, if_pos admitted], ?_⟩
  intro stored bound
  rw [Dictionary.get?_insert, if_pos rfl] at bound
  cases bound
  exact absent

theorem addToPath_of_nulFree (clean : env.PathNulFree) (free : Text.NulFree directory) :
    ∃ env', env.addToPath directory = some env' ∧ env'.PathNulFree := by
  refine assign_path ?_
  split
  · next old set =>
      split
      · exact free
      · have colon : Text.NulFree ":" := by decide
        exact Text.nulFree_append.mpr
          ⟨Text.nulFree_append.mpr ⟨nulFree_of_text? clean set, colon⟩, free⟩
  · exact free

end Environment

namespace Shell

variable {sh : Shell}

theorem addAllToPath_of_nulFree {directories : List String} (clean : sh.machine.env.PathNulFree)
    (free : ∀ directory ∈ directories, Text.NulFree directory) :
    ∃ env, Environment.PathNulFree env ∧ sh.addAllToPath directories = some
      { session := { sh.session with addedPaths := sh.session.addedPaths ++ directories }
        machine := { sh.machine with env }
        log := sh.log } := by
  have grows : ∃ sh', sh.addAllToPath directories = some sh' ∧ sh'.machine.env.PathNulFree := by
    induction directories generalizing sh with
    | nil => exact ⟨sh, rfl, clean⟩
    | cons directory directories ih =>
        obtain ⟨env, added, clean'⟩ :=
          Environment.addToPath_of_nulFree clean (free directory List.mem_cons_self)
        rw [addAllToPath, List.foldlM_cons, addToPath, added]
        exact ih clean' fun other member => free other (List.mem_cons_of_mem _ member)
  obtain ⟨sh', added, clean'⟩ := grows
  obtain ⟨env, rfl⟩ := addAllToPath_spec added
  exact ⟨env, clean', added⟩

theorem exists_nul_of_addAllToPath {directories : List String} (clean : sh.machine.env.PathNulFree)
    (refused : sh.addAllToPath directories = none) :
    ∃ directory ∈ directories, ¬ Text.NulFree directory := by
  by_contra free
  push Not at free
  obtain ⟨env, -, added⟩ := addAllToPath_of_nulFree clean free
  rw [refused] at added
  cases added

end Shell

/-! ## Builtins -/

namespace Builtin

variable {argv : List String} {sink : Sink} {sh : Shell}

theorem survives_runCd (args : List String) : (runCd args sink sh).1 ≠ .aborted := by
  unfold runCd
  dsimp only
  split
  · exact (idle_fail sink _).1
  · split
    · exact (idle_fail sink _).1
    · split
      · exact (idle_fail sink _).1
      · exact (idle_report sink _).1

theorem survives_runHelp (args : List String) : (runHelp args sink sh).1 ≠ .aborted := by
  unfold runHelp
  split
  · split
    · exact (idle_report sink _).1
    · exact (idle_fail sink _).1
  · exact (idle_report sink _).1

theorem survives_runPwd : (runPwd sink sh).1 ≠ .aborted := by
  unfold runPwd
  split
  · exact (idle_fail sink _).1
  · exact (idle_report sink _).1

/-- Of all builtins, only `set path` can be the end of the shell. -/
theorem addAllToPath_of_aborted {b : Builtin} (aborted : (b.run argv sink sh).1 = .aborted) :
    b = set ∧ ∃ directories, argv.drop 1 = "path" :: directories ∧
      sh.addAllToPath directories = none := by
  cases b with
  | defineAlias =>
      rcases runDefineAlias_cases (argv.drop 1) sink sh with idle | ⟨_, _, _, _, result⟩
      · exact absurd aborted idle.1
      · rw [run, result] at aborted
        cases aborted
  | removeAlias =>
      rcases runRemoveAlias_cases (argv.drop 1) sink sh with idle | ⟨_, _, _, result⟩
      · exact absurd aborted idle.1
      · rw [run, result] at aborted
        cases aborted
  | set =>
      rcases runSet_cases (argv.drop 1) sink sh with
        idle | ⟨directories, args, ⟨refused, -⟩ | ⟨sh', -, result⟩⟩ | ⟨prompt, -, result⟩
      · exact absurd aborted idle.1
      · exact ⟨rfl, directories, args, refused⟩
      · rw [run, result] at aborted
        cases aborted
      · rw [run, result] at aborted
        cases aborted
  | bye => cases aborted
  | cd => exact absurd aborted (survives_runCd _)
  | clear => exact absurd aborted (idle_report sink _).1
  | help => exact absurd aborted (survives_runHelp _)
  | history => exact absurd aborted (idle_report sink _).1
  | prev => exact absurd aborted (idle_report sink _).1
  | pwd => exact absurd aborted survives_runPwd

end Builtin

/-! ## Lines -/

/-- The stage is to add directories to the search list that some environment cannot hold: if the
list holds no NUL itself, one of the directories does. -/
structure Stage.AddsNul (stage : Stage) : Prop where
  name : stage.isBuiltin = true ∧ stage.name = Builtin.set.name
  directories : ∃ (directories : List String) (sh : Shell),
    stage.argv.drop 1 = "path" :: directories ∧ sh.addAllToPath directories = none ∧
      (sh.machine.env.PathNulFree → ∃ directory ∈ directories, ¬ Text.NulFree directory)

theorem Job.addsNul_of_launch {order : Handshake} {stage : Stage} {c : Connection}
    {world : Shell × List WaitStatus}
    (aborted : ((launcher order).launch stage c world).1 = .error .aborted) : stage.AddsNul := by
  obtain ⟨sh, ended⟩ := world
  simp only [launcher] at aborted
  split at aborted
  · next builtin =>
      have failed : (runBuiltin stage (sh.disconnect c)).1 = .error .aborted := by
        revert aborted
        cases (runBuiltin stage (sh.disconnect c)).1 with
        | error cause => exact fun same => congrArg Except.error (Except.error.inj same)
        | ok flow => rintro ⟨⟩
      unfold runBuiltin at failed
      split at failed
      · cases failed
      · next b named =>
          have gone : (b.run stage.argv {} (sh.disconnect c)).1 = .aborted := by
            revert failed
            dsimp only
            cases (b.run stage.argv {} (sh.disconnect c)).1 with
            | done flow => rintro ⟨⟩
            | failed cause => rintro ⟨⟩
            | aborted => exact fun _ => rfl
          obtain ⟨rfl, directories, args, refused⟩ := Builtin.addAllToPath_of_aborted gone
          exact ⟨⟨builtin, Builtin.ofName?_eq_some_iff.mp named⟩, directories, sh.disconnect c,
            args, refused, fun clean => Shell.exists_nul_of_addAllToPath clean refused⟩
  · revert aborted
    dsimp only
    cases (spawn order stage c sh).1 with
    | error cause => rintro ⟨⟩
    | ok handle => rintro ⟨⟩

section Evaluating

variable {σ : Type} {l : Launcher σ}

theorem exists_launch_of_failure {pairs : List (Stage × Connection)} {world : Shell × σ}
    {cause : ShellError} (failed : (launchEach l pairs world).failure = some cause) :
    ∃ stage c world', (stage, c) ∈ pairs ∧ (l.launch stage c world').1 = .error cause := by
  induction pairs generalizing world with
  | nil => cases failed
  | cons pair pairs ih =>
      obtain ⟨stage, c⟩ := pair
      rcases outcome : l.launch stage c world with ⟨cause' | launched, after⟩
      · rw [launchEach_of_error outcome] at failed
        obtain rfl := Option.some.inj failed
        exact ⟨stage, c, world, List.mem_cons_self, by rw [outcome]⟩
      · rw [launchEach_of_ok outcome] at failed
        obtain ⟨stage', c', world', member, failed'⟩ := ih failed
        exact ⟨stage', c', world', List.mem_cons_of_mem _ member, failed'⟩

end Evaluating

theorem survives_compile (context : Context) (line : String) :
    compile context line ≠ .error .aborted := by
  unfold compile
  split
  · rintro ⟨⟩
  · split <;> rintro ⟨⟩

/-- If the shell does not survive a line, a stage of it was to add a NUL to the search list. -/
theorem addsNul_of_eval {order : Handshake} {line : String} {world : Shell × List WaitStatus}
    (aborted : (eval (Job.launcher order) line world).1 = .error .aborted) :
    ∃ p, compile world.1.context line = .ok p ∧ ∃ stage ∈ p.stages, stage.AddsNul := by
  rw [eval_eq_reference (Job.runsBuiltins order)] at aborted
  rcases compiled : compile world.1.context line with cause | p
  · rw [reference_of_uncompiled compiled] at aborted
    rw [Except.error.inj aborted] at compiled
    exact absurd compiled (survives_compile _ _)
  · rcases outcome : wire p world.1.machine with ⟨cause | connections, machine⟩
    · rw [reference_of_unwired compiled outcome] at aborted
      cases aborted
    · rw [reference_of_wired compiled outcome, carryOut] at aborted
      cases failure : (launchEach (Job.launcher order) (p.stages.zip connections)
          ({ world.1 with machine }, world.2)).failure with
      | none =>
          rw [failure] at aborted
          cases aborted
      | some cause =>
          rw [failure] at aborted
          obtain rfl := Except.error.inj aborted
          obtain ⟨stage, c, world', member, failed⟩ := exists_launch_of_failure failure
          exact ⟨p, rfl, stage, (List.of_mem_zip member).1, Job.addsNul_of_launch failed⟩

end PipeShell
