import PipeShell.Proofs.Alias.Calls
import PipeShell.Proofs.Builtin

/-!
# What builtins do to a session

Three builtins can change a session: `alias` by a definition, `unalias` by a removal, `set` by a
prompt or by directories of the search list.  For each of them its outcomes are listed, failures
included.  All others leave the session as it is (`session_run_of_other`).
-/

set_option autoImplicit false

namespace PipeShell

namespace Shell

variable {sh sh' : Shell} {directory : String} {directories : List String}

/-- Directories are added behind those that were added before; aliases, prompt and history stay. -/
theorem addAllToPath_spec (added : sh.addAllToPath directories = some sh') : ∃ env, sh' =
    { session := { sh.session with addedPaths := sh.session.addedPaths ++ directories }
      machine := { sh.machine with env }
      log := sh.log } := by
  induction directories generalizing sh with
  | nil =>
      cases added
      exact ⟨sh'.machine.env, by rw [List.append_nil]⟩
  | cons directory directories ih =>
      rw [addAllToPath, List.foldlM_cons] at added
      obtain ⟨first, one, others⟩ := Option.bind_eq_some_iff.mp added
      obtain ⟨env, -, rfl⟩ := Option.map_eq_some_iff.mp one
      obtain ⟨env', rfl⟩ := ih others
      exact ⟨env', by simp only [List.append_assoc, List.singleton_append]⟩

end Shell

namespace Builtin

variable (args : List String) (sink : Sink) (sh : Shell)

/-- The builtin did not change the shell, and the shell survived. -/
def Idle (sh : Shell) (result : Outcome × Sink × Shell) : Prop :=
  result.1 ≠ .aborted ∧ result.2.2 = sh

variable {sh} in
theorem idle_fail (cause : BuiltinError) : Idle sh (fail cause sink sh) :=
  ⟨by rintro ⟨⟩, rfl⟩

variable {sh} in
theorem idle_report (texts : List String) : Idle sh (report sink sh texts) := by
  refine ⟨?_, rfl⟩
  show (printAll sink texts).1 ≠ .aborted
  induction texts generalizing sink with
  | nil => rintro ⟨⟩
  | cons text rest ih =>
      rw [printAll]
      split
      · exact ih _
      · rintro ⟨⟩

/-! ## Outcomes -/

theorem runDefineAlias_cases :
    Idle sh (runDefineAlias args sink sh) ∨
    ∃ name value aliases, sh.session.aliases.add name value = .ok aliases ∧
      runDefineAlias args sink sh =
        (.done .proceed, sink, { sh with session := { sh.session with aliases } }) := by
  unfold runDefineAlias
  split
  · exact Or.inl (idle_report sink _)
  · split
    · exact Or.inl (idle_fail sink _)
    · next name value _ =>
        split
        · exact Or.inl (idle_fail sink _)
        · cases outcome : sh.session.aliases.add (Text.trim name) (unquoted value) with
          | error cause => exact Or.inl (idle_fail sink cause)
          | ok aliases => exact Or.inr ⟨_, _, aliases, outcome, rfl⟩

theorem runRemoveAlias_cases :
    Idle sh (runRemoveAlias args sink sh) ∨
    ∃ name aliases, sh.session.aliases.remove name = some aliases ∧
      runRemoveAlias args sink sh =
        (.done .proceed, sink, { sh with session := { sh.session with aliases } }) := by
  unfold runRemoveAlias
  split
  · next name =>
      cases outcome : sh.session.aliases.remove name with
      | none => exact Or.inl (idle_fail sink _)
      | some aliases => exact Or.inr ⟨name, aliases, outcome, rfl⟩
  · exact Or.inl (idle_fail sink _)

theorem runSet_cases :
    Idle sh (runSet args sink sh) ∨
    (∃ directories, args = "path" :: directories ∧
      (sh.addAllToPath directories = none ∧ runSet args sink sh = (.aborted, sink, sh) ∨
        ∃ sh', sh.addAllToPath directories = some sh' ∧
          runSet args sink sh = (.done .proceed, sink, sh'))) ∨
    ∃ prompt, args = ["prompt", prompt] ∧ runSet args sink sh =
      (.done .proceed, sink, { sh with session := { sh.session with prompt } }) := by
  unfold runSet
  split
  · exact Or.inl (idle_report sink _)
  · next directory more =>
      refine Or.inr (Or.inl ⟨directory :: more, rfl, ?_⟩)
      cases outcome : sh.addAllToPath (directory :: more) with
      | none => exact Or.inl ⟨rfl, rfl⟩
      | some sh' => exact Or.inr ⟨sh', rfl, rfl⟩
  · next prompt => exact Or.inr (Or.inr ⟨prompt, rfl, rfl⟩)
  · exact Or.inl (idle_fail sink _)

/-! ## The other builtins -/

theorem session_runCd : (runCd args sink sh).2.2.session = sh.session := by
  unfold runCd
  dsimp only
  split
  · rfl
  · split
    · rfl
    · split <;> rfl

theorem session_runHelp : (runHelp args sink sh).2.2.session = sh.session := by
  unfold runHelp
  split
  · split <;> rfl
  · rfl

theorem session_runPwd : (runPwd sink sh).2.2.session = sh.session := by
  unfold runPwd
  split <;> rfl

/-- The builtins that can change a session. -/
def Changes (b : Builtin) : Prop := b = defineAlias ∨ b = removeAlias ∨ b = set

theorem session_run_of_other {b : Builtin} (other : ¬ Changes b) (argv : List String) :
    (b.run argv sink sh).2.2.session = sh.session := by
  cases b with
  | defineAlias => exact absurd (Or.inl rfl) other
  | removeAlias => exact absurd (Or.inr (Or.inl rfl)) other
  | set => exact absurd (Or.inr (Or.inr rfl)) other
  | bye => rfl
  | cd => exact session_runCd ..
  | clear => rfl
  | help => exact session_runHelp ..
  | history => rfl
  | prev => rfl
  | pwd => exact session_runPwd ..

/-- No builtin has to do with the children of the session. -/
theorem group_run (b : Builtin) (argv : List String) :
    (b.run argv sink sh).2.2.session.group = sh.session.group := by
  by_cases changes : Changes b
  · rcases changes with rfl | rfl | rfl
    · rcases runDefineAlias_cases (argv.drop 1) sink sh with ⟨-, same⟩ | ⟨_, _, _, -, result⟩
      · rw [run, same]
      · rw [run, result]
    · rcases runRemoveAlias_cases (argv.drop 1) sink sh with ⟨-, same⟩ | ⟨_, _, -, result⟩
      · rw [run, same]
      · rw [run, result]
    · rcases runSet_cases (argv.drop 1) sink sh with
        ⟨-, same⟩ | ⟨_, -, ⟨-, result⟩ | ⟨sh', added, result⟩⟩ | ⟨_, -, result⟩
      · rw [run, same]
      · rw [run, result]
      · obtain ⟨env, rfl⟩ := Shell.addAllToPath_spec added
        rw [run, result]
      · rw [run, result]
  · rw [session_run_of_other sink sh changes argv]

/-! ## What stays of the rest -/

/-- Only two builtins reach out of the session: `cd` to another directory, `set` to the search
list. -/
theorem machine_run_of_ne {b : Builtin} (still : b ≠ cd) (plain : b ≠ set) (argv : List String) :
    (b.run argv sink sh).2.2.machine = sh.machine := by
  cases b with
  | cd => exact absurd rfl still
  | set => exact absurd rfl plain
  | defineAlias =>
      rcases runDefineAlias_cases (argv.drop 1) sink sh with ⟨-, same⟩ | ⟨_, _, _, -, result⟩
      · rw [run, same]
      · rw [run, result]
  | removeAlias =>
      rcases runRemoveAlias_cases (argv.drop 1) sink sh with ⟨-, same⟩ | ⟨_, _, -, result⟩
      · rw [run, same]
      · rw [run, result]
  | help =>
      show (runHelp (argv.drop 1) sink sh).2.2.machine = _
      unfold runHelp
      split
      · split <;> rfl
      · rfl
  | pwd =>
      show (runPwd sink sh).2.2.machine = _
      unfold runPwd
      split <;> rfl
  | bye => rfl
  | clear => rfl
  | history => rfl
  | prev => rfl

theorem addedPaths_run_of_ne {b : Builtin} (plain : b ≠ set) (argv : List String) :
    (b.run argv sink sh).2.2.session.addedPaths = sh.session.addedPaths := by
  by_cases changes : Changes b
  · rcases changes with rfl | rfl | rfl
    · rcases runDefineAlias_cases (argv.drop 1) sink sh with ⟨-, same⟩ | ⟨_, _, _, -, result⟩
      · rw [run, same]
      · rw [run, result]
    · rcases runRemoveAlias_cases (argv.drop 1) sink sh with ⟨-, same⟩ | ⟨_, _, -, result⟩
      · rw [run, same]
      · rw [run, result]
    · exact absurd rfl plain
  · rw [session_run_of_other sink sh changes argv]

/-- Of the environment, `cd` changes the variable that names the working directory. -/
theorem get?_runCd {name : String} (other : name ≠ Environment.directoryName) :
    (runCd args sink sh).2.2.machine.env.get? name = sh.machine.env.get? name := by
  have moved : ∀ {directory machine}, sh.machine.changeDirectory directory = .ok machine →
      machine.env = sh.machine.env := by
    intro directory machine went
    obtain ⟨cwd, rfl⟩ := Machine.eq_of_changeDirectory went
    rfl
  unfold runCd
  dsimp only
  split
  · rfl
  · split
    · rfl
    · next went =>
        split
        · exact congrArg (Dictionary.get? · name) (moved went)
        · show (Dictionary.insert _ _ _).get? name = _
          rw [Dictionary.get?_insert, if_neg other, moved went]

/-- Whether the shell can say where it is then or not, `cd` goes where it is sent. -/
theorem machine_runCd {directory : String} {machine : Machine}
    (went : sh.machine.changeDirectory directory = .ok machine) :
    ∃ env, (runCd [directory] sink sh).2.2.machine = { machine with env } := by
  unfold runCd
  dsimp only
  rw [went]
  dsimp only
  split
  · exact ⟨machine.env, rfl⟩
  · exact ⟨_, rfl⟩

/-- Directories of the search list are added where the shell is. -/
theorem cwd_run_of_ne {b : Builtin} (still : b ≠ cd) (argv : List String) :
    (b.run argv sink sh).2.2.machine.cwd = sh.machine.cwd := by
  by_cases plain : b = set
  · subst plain
    rcases runSet_cases (argv.drop 1) sink sh with
      ⟨-, same⟩ | ⟨_, -, ⟨-, result⟩ | ⟨sh', added, result⟩⟩ | ⟨_, -, result⟩
    · rw [run, same]
    · rw [run, result]
    · obtain ⟨env, rfl⟩ := Shell.addAllToPath_spec added
      rw [run, result]
    · rw [run, result]
  · rw [machine_run_of_ne sink sh still plain argv]

end Builtin

end PipeShell
