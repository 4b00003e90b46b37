import PipeShell.Builtin

/-!
# What builtins do to the shell

Of the machine, a builtin changes the working directory and the environment at most
(`machine_run`).  `bye` is the only one that tells the shell to exit (`flow_run`).
-/

set_option autoImplicit false

namespace PipeShell

/-! ## The machine -/

theorem Machine.eq_of_changeDirectory {m m' : Machine} {path : String}
    (went : m.changeDirectory path = .ok m') : ∃ cwd, m' = { m with cwd } := by
  unfold changeDirectory at went
  split at went
  · cases went
  · split at went
    · cases went
    · cases went
      exact ⟨_, rfl⟩

/-- The shells are on the same machine but for the working directory and the environment. -/
def Shell.SameMachine (sh sh' : Shell) : Prop :=
  ∃ cwd env, sh'.machine = { sh.machine with cwd, env }

namespace Shell.SameMachine

variable {sh sh' : Shell}

theorem of_eq (same : sh'.machine = sh.machine) : SameMachine sh sh' :=
  ⟨sh.machine.cwd, sh.machine.env, same⟩

theorem addAllToPath {directories : List String}
    (added : sh.addAllToPath directories = some sh') : SameMachine sh sh' := by
  induction directories generalizing sh with
  | nil =>
      cases added
      exact .of_eq rfl
  | cons directory directories ih =>
      rw [Shell.addAllToPath, List.foldlM_cons] at added
      obtain ⟨first, one, others⟩ := Option.bind_eq_some_iff.mp added
      obtain ⟨env, -, rfl⟩ := Option.map_eq_some_iff.mp one
      obtain ⟨cwd, env, machine⟩ := ih others
      exact ⟨cwd, env, machine⟩

end Shell.SameMachine

namespace Builtin

open Shell (SameMachine)

variable {args : List String} {sink : Sink} {sh sh' : Shell}

/-! ## Builtins that do not exit -/

/-- What all builtins but one may come to: the machine is the same, and the shell is not told to
exit. -/
structure Mild (sh : Shell) (result : Outcome × Sink × Shell) : Prop where
  machine : SameMachine sh result.2.2
  flow : ∀ flow, result.1 = .done flow → flow = .proceed

theorem mild_done (same : SameMachine sh sh') : Mild sh (.done .proceed, sink, sh') :=
  ⟨same, by rintro _ ⟨⟩; rfl⟩

theorem mild_fail (cause : BuiltinError) (same : SameMachine sh sh') :
    Mild sh (fail cause sink sh') :=
  ⟨same, by rintro _ ⟨⟩⟩

theorem mild_report (texts : List String) (same : SameMachine sh sh') :
    Mild sh (report sink sh' texts) := by
  refine ⟨same, ?_⟩
  show ∀ flow, (printAll sink texts).1 = .done flow → flow = .proceed
  induction texts generalizing sink with
  | nil =>
      rintro _ ⟨⟩
      rfl
  | cons text rest ih =>
      rw [printAll]
      split
      · exact ih
      · rintro _ ⟨⟩

theorem mild_runCd : Mild sh (runCd args sink sh) := by
  unfold runCd
  dsimp only
  split
  · exact mild_fail _ (.of_eq rfl)
  · split
    · exact mild_fail _ (.of_eq rfl)
    · next directory _ machine went =>
        obtain ⟨cwd, rfl⟩ := Machine.eq_of_changeDirectory went
        split
        · exact mild_fail _ ⟨_, _, rfl⟩
        · exact mild_report _ ⟨_, _, rfl⟩

theorem mild_runDefineAlias : Mild sh (runDefineAlias args sink sh) := by
  unfold runDefineAlias
  split
  · exact mild_report _ (.of_eq rfl)
  · split
    · exact mild_fail _ (.of_eq rfl)
    · split
      · exact mild_fail _ (.of_eq rfl)
      · split
        · exact mild_fail _ (.of_eq rfl)
        · exact mild_done (.of_eq rfl)

theorem mild_runRemoveAlias : Mild sh (runRemoveAlias args sink sh) := by
  unfold runRemoveAlias
  split
  · split
    · exact mild_fail _ (.of_eq rfl)
    · exact mild_done (.of_eq rfl)
  · exact mild_fail _ (.of_eq rfl)

theorem mild_runSet : Mild sh (runSet args sink sh) := by
  unfold runSet
  split
  · exact mild_report _ (.of_eq rfl)
  · split
    · exact ⟨.of_eq rfl, by rintro _ ⟨⟩⟩
    · next added => exact mild_done (.addAllToPath added)
  · exact mild_done (.of_eq rfl)
  · exact mild_fail _ (.of_eq rfl)

theorem mild_runHelp : Mild sh (runHelp args sink sh) := by
  unfold runHelp
  split
  · split
    · exact mild_report _ (.of_eq rfl)
    · exact mild_fail _ (.of_eq rfl)
  · exact mild_report _ (.of_eq rfl)

theorem mild_runPwd : Mild sh (runPwd sink sh) := by
  unfold runPwd
  split
  · exact mild_fail _ (.of_eq rfl)
  · exact mild_report _ (.of_eq rfl)

theorem mild_run {b : Builtin} (stays : b ≠ bye) (argv : List String) (sink : Sink) (sh : Shell) :
    Mild sh (b.run argv sink sh) := by
  cases b with
  | bye => exact absurd rfl stays
  | defineAlias => exact mild_runDefineAlias
  | cd => exact mild_runCd
  | clear => exact mild_report [clearCode] (.of_eq rfl)
  | help => exact mild_runHelp
  | history => exact mild_report _ (.of_eq rfl)
  | prev => exact mild_report _ (.of_eq rfl)
  | pwd => exact mild_runPwd
  | set => exact mild_runSet
  | removeAlias => exact mild_runRemoveAlias

/-! ## All builtins -/

/-- Of the machine, a builtin changes the working directory and the environment at most. -/
theorem machine_run (b : Builtin) (argv : List String) (sink : Sink) (sh : Shell) :
    SameMachine sh (b.run argv sink sh).2.2 := by
  by_cases leaves : b = bye
  · subst leaves
    exact .of_eq rfl
  · exact (mild_run leaves argv sink sh).machine

/-- A builtin that ends well tells the shell to exit if it is `bye`, and to proceed otherwise. -/
theorem flow_run {b : Builtin} {argv : List String} {flow : Flow}
    (done : (b.run argv sink sh).1 = .done flow) :
    flow = if b = bye then .exit else .proceed := by
  split
  · next leaves =>
      subst leaves
      cases done
      rfl
  · next stays => exact (mild_run stays argv sink sh).flow flow done

end Builtin

end PipeShell
