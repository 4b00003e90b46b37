import PipeShell.Proofs.Evaluation
import PipeShell.Proofs.Session.Builtins
import PipeShell.ReadLoop

/-!
# How a session develops

Evaluating a line leaves the history alone, and it changes the aliases only as definitions and
removals do (`develops_eval`).  So whatever settings a session starts from and whatever lines it
evaluates, its aliases are a table that was built by calls, and they never lead in a circle
(`aliases_stay_acyclic_and_add_is_exact`).  `Shell.Lives` is the reach of this: whatever the loop
reads, its shell is one of these (`Shell.lives_run`).
-/

set_option autoImplicit false

namespace PipeShell

variable {σ : Type}

/-! ## Development -/

/-- What a session may become while a line is evaluated. -/
structure Session.Develops (s s' : Session) : Prop where
  history : s'.history = s.history
  aliases : ∃ calls, s'.aliases = s.aliases.afterAll calls

namespace Session.Develops

variable {s s₁ s₂ : Session}

theorem of_kept (history : s₁.history = s.history) (aliases : s₁.aliases = s.aliases) :
    Develops s s₁ :=
  ⟨history, [], aliases⟩

theorem of_eq (same : s₁ = s) : Develops s s₁ := same ▸ of_kept rfl rfl

theorem of_call (call : AliasTable.Call) :
    Develops s { s with aliases := s.aliases.after call } :=
  ⟨rfl, [call], rfl⟩

theorem trans (first : Develops s s₁) (second : Develops s₁ s₂) : Develops s s₂ := by
  obtain ⟨calls, aliases⟩ := first.aliases
  obtain ⟨calls', aliases'⟩ := second.aliases
  refine ⟨second.history.trans first.history, calls ++ calls', ?_⟩
  rw [AliasTable.afterAll_append, ← aliases, aliases']

end Session.Develops

open Session (Develops)

/-! ## Builtins -/

namespace Builtin

variable {args argv : List String} {sink : Sink} {sh : Shell}

theorem Idle.develops {result : Outcome × Sink × Shell} (idle : Idle sh result) :
    Develops sh.session result.2.2.session :=
  .of_eq (by rw [idle.2])

theorem develops_runDefineAlias :
    Develops sh.session (runDefineAlias args sink sh).2.2.session := by
  rcases runDefineAlias_cases args sink sh with idle | ⟨name, value, aliases, added, result⟩
  · exact idle.develops
  · rw [result, ← AliasTable.after_of_add added]
    exact .of_call (.add name value)

theorem develops_runRemoveAlias :
    Develops sh.session (runRemoveAlias args sink sh).2.2.session := by
  rcases runRemoveAlias_cases args sink sh with idle | ⟨name, aliases, removed, result⟩
  · exact idle.develops
  · rw [result, ← AliasTable.after_of_remove removed]
    exact .of_call (.remove name)

theorem develops_runSet : Develops sh.session (runSet args sink sh).2.2.session := by
  rcases runSet_cases args sink sh with
    idle | ⟨directories, -, ⟨-, result⟩ | ⟨sh', added, result⟩⟩ | ⟨prompt, -, result⟩
  · exact idle.develops
  · rw [result]
    exact .of_eq rfl
  · obtain ⟨env, rfl⟩ := Shell.addAllToPath_spec added
    rw [result]
    exact .of_kept rfl rfl
  · rw [result]
    exact .of_kept rfl rfl

theorem develops_run (b : Builtin) : Develops sh.session (b.run argv sink sh).2.2.session := by
  by_cases changes : Changes b
  · rcases changes with rfl | rfl | rfl
    · exact develops_runDefineAlias
    · exact develops_runRemoveAlias
    · exact develops_runSet
  · exact .of_eq (session_run_of_other sink sh changes argv)

end Builtin

/-! ## Launchers -/

/-- The calls of a launcher develop the session. -/
structure Launcher.Develops (l : Launcher σ) : Prop where
  launch : ∀ stage c world, Session.Develops world.1.session (l.launch stage c world).2.1.session
  wait : ∀ handle world, Session.Develops world.1.session (l.wait handle world).2.1.session

theorem Job.develops_runBuiltin (stage : Stage) (sh : Shell) :
    Develops sh.session (runBuiltin stage sh).2.session := by
  unfold runBuiltin
  split
  · exact .of_eq rfl
  · next b _ => exact b.develops_run

/-- Of the session, starting a process changes the group alone. -/
theorem Job.develops_spawn (order : Handshake) (stage : Stage) (c : Connection) (sh : Shell) :
    Develops sh.session (spawn order stage c sh).2.session := by
  unfold spawn
  split
  · exact .of_eq rfl
  · split
    · exact .of_eq rfl
    · exact .of_kept rfl rfl

theorem Job.develops (order : Handshake) : (Job.launcher order).Develops where
  launch := by
    rintro stage c ⟨sh, ended⟩
    simp only [launcher]
    split
    · exact develops_runBuiltin stage (sh.disconnect c)
    · exact develops_spawn order stage c sh
  wait := by
    rintro handle ⟨sh, ended⟩
    simp only [launcher]
    split
    · split <;> exact .of_eq rfl
    · exact .of_eq rfl

/-! ## Evaluation -/

theorem session_disconnectAll (sh : Shell) (connections : List Connection) :
    (sh.disconnectAll connections).session = sh.session := by
  rw [Shell.disconnectAll_eq]

section Evaluating

variable {l : Launcher σ}

theorem develops_launchEach (develops : l.Develops) (pairs : List (Stage × Connection))
    (world : Shell × σ) :
    Develops world.1.session (launchEach l pairs world).world.1.session := by
  induction pairs generalizing world with
  | nil => exact .of_eq rfl
  | cons pair pairs ih =>
      obtain ⟨stage, c⟩ := pair
      have launched := develops.launch stage c world
      rcases outcome : l.launch stage c world with ⟨cause | launched', after⟩
      · rw [outcome] at launched
        rw [launchEach_of_error outcome]
        exact launched.trans (.of_eq (session_disconnectAll ..))
      · rw [outcome] at launched
        rw [launchEach_of_ok outcome]
        exact launched.trans (ih after)

theorem develops_await (develops : l.Develops) (world : Shell × σ) (handle : Handle) :
    Develops world.1.session (Supervisor.await l world handle).1.session := by
  have waited := develops.wait handle world
  rcases outcome : l.wait handle world with ⟨cause | status, sh, own⟩ <;>
    rw [outcome] at waited <;> rw [Supervisor.await, outcome] <;> exact waited

theorem develops_foldl_await (develops : l.Develops) (handles : List Handle) (world : Shell × σ) :
    Develops world.1.session (handles.foldl (Supervisor.await l) world).1.session := by
  induction handles generalizing world with
  | nil => exact .of_eq rfl
  | cons handle handles ih => exact (develops_await develops world handle).trans (ih _)

theorem develops_eval (runs : l.RunsBuiltins) (develops : l.Develops) (line : String)
    (world : Shell × σ) : Develops world.1.session (eval l line world).2.1.session := by
  rw [eval_eq_reference runs]
  rcases compiled : compile world.1.context line with cause | p
  · rw [reference_of_uncompiled compiled]
    exact .of_eq rfl
  · rcases outcome : wire p world.1.machine with ⟨cause | connections, machine⟩
    · rw [reference_of_unwired compiled outcome]
      exact .of_eq rfl
    · rw [reference_of_wired compiled outcome, carryOut]
      have launched := develops_launchEach develops (p.stages.zip connections)
        ({ world.1 with machine }, world.2)
      exact launched.trans (develops_foldl_await develops _ _)

/-- Before it is evaluated, a line is remembered. -/
theorem develops_evaluate (runs : l.RunsBuiltins) (develops : l.Develops) (line : String)
    (world : Shell × σ) : Develops (world.1.remember line).session
      (ReadLoop.evaluate l line world).2.1.session := by
  have evaluated := develops_eval runs develops line (world.1.remember line, world.2)
  rw [ReadLoop.evaluate]
  split <;> next outcome => rw [outcome] at evaluated; exact evaluated

end Evaluating

/-! ## Starting -/

namespace Shell

/-- A saved alias is taken over, or it is refused with a warning. -/
theorem adoptAlias_spec (sh : Shell) (name value : String) : ∃ log, sh.adoptAlias name value =
    { session := { sh.session with aliases := sh.session.aliases.after (.add name value) }
      machine := sh.machine
      log } := by
  rw [adoptAlias, Session.adoptAlias]
  cases outcome : sh.session.aliases.add name value with
  | ok aliases => exact ⟨_, by rw [AliasTable.after_of_add outcome]⟩
  | error cause => exact ⟨_, by rw [AliasTable.after_of_refused outcome]⟩

theorem adoptAliases_spec (sh : Shell) (saved : Dictionary String) :
    ∃ calls log, sh.adoptAliases saved =
      { session := { sh.session with aliases := sh.session.aliases.afterAll calls }
        machine := sh.machine
        log } := by
  rw [adoptAliases]
  induction saved.toList generalizing sh with
  | nil => exact ⟨[], sh.log, rfl⟩
  | cons entry entries ih =>
      obtain ⟨name, value⟩ := entry
      obtain ⟨log, adopted⟩ := adoptAlias_spec sh name value
      obtain ⟨calls, log', others⟩ := ih (sh.adoptAlias name value)
      refine ⟨.add name value :: calls, log', ?_⟩
      rw [List.foldl_cons, others, adopted]
      rfl

/-- Definitions that are all accepted are taken over without a warning. -/
theorem foldl_adoptAlias_of_addAll {sh : Shell} {entries : List (String × String)}
    {aliases : AliasTable} (added : sh.session.aliases.addAll entries = .ok aliases) :
    entries.foldl (fun sh (name, value) => sh.adoptAlias name value) sh =
      { sh with session := { sh.session with aliases } } := by
  induction entries generalizing sh with
  | nil =>
      cases added
      rfl
  | cons entry entries ih =>
      obtain ⟨name, value⟩ := entry
      rw [AliasTable.addAll, List.foldlM_cons] at added
      cases first : sh.session.aliases.add name value with
      | error cause =>
          rw [first] at added
          cases added
      | ok table =>
          rw [first] at added
          have adopted : sh.adoptAlias name value =
              { sh with session := { sh.session with aliases := table } } := by
            rw [adoptAlias, Session.adoptAlias, first]
            simp only [List.append_nil]
          rw [List.foldl_cons]
          dsimp only
          rw [adopted]
          exact ih added

theorem aliases_start {settings : Settings} {machine : Machine} {sh : Shell}
    (started : start settings machine = some sh) :
    ∃ calls, sh.session.aliases = AliasTable.empty.afterAll calls := by
  obtain ⟨first, added, rfl⟩ := Option.map_eq_some_iff.mp started
  obtain ⟨env, rfl⟩ := addAllToPath_spec added
  obtain ⟨calls, log, adopted⟩ := adoptAliases_spec _ settings.aliases
  exact ⟨calls, congrArg (fun sh : Shell => sh.session.aliases) adopted⟩

/-- The shell of a session, from its start on: lines are evaluated, and around that the machine
changes and what was logged is taken. -/
inductive Lives : Shell → Prop
  | start {settings : Settings} {machine : Machine} {sh : Shell}
      (started : start settings machine = some sh) : Lives sh
  | evaluate {sh : Shell} (lives : Lives sh) (order : Handshake) (line : String)
      (ended : List WaitStatus) :
      Lives (ReadLoop.evaluate (Job.launcher order) line (sh, ended)).2.1
  | around {sh : Shell} (lives : Lives sh) (machine : Machine) (log : List Warning) :
      Lives { sh with machine, log }

theorem Lives.print {sh : Shell} (lives : sh.Lives) (text : String) : (sh.print text).Lives :=
  lives.around (sh.machine.print (Text.encode text)) sh.log

theorem Lives.printAll {sh : Shell} (lives : sh.Lives) (texts : List String) :
    (sh.printAll texts).Lives := by
  rw [Shell.printAll]
  induction texts generalizing sh with
  | nil => exact lives
  | cons text texts ih => exact ih (lives.print text)

theorem Lives.ask {sh : Shell} (lives : sh.Lives) (interactive : Bool) :
    (sh.ask interactive).Lives := by
  unfold Shell.ask
  split
  · exact lives.print _
  · exact lives

/-- The loop takes the shell of a session through lines and prints around them. -/
theorem lives_run (order : Handshake) (interactive : Bool) (input : Bytes)
    (world : Shell × List WaitStatus) (lives : world.1.Lives) :
    (ReadLoop.run (Job.launcher order) interactive input world).2.1.Lives := by
  fun_induction ReadLoop.run (Job.launcher order) interactive input world with
  | case1 input sh own asked ended =>
      have lives' : asked.Lives := lives.ask interactive
      dsimp only
      split
      · exact lives'.print _
      · exact lives'
  | case2 input sh own asked line rest taken resolved shown passed ih =>
      exact ih ((lives.ask interactive).printAll resolved.shown)
  | case3 input sh own asked line rest taken resolved shown chosen named ending world stopped =>
      have lives' : shown.Lives := (lives.ask interactive).printAll resolved.shown
      have evaluated := lives'.evaluate order chosen own
      rwa [stopped] at evaluated
  | case4 input sh own asked line rest taken resolved shown chosen named world onward ih =>
      have lives' : shown.Lives := (lives.ask interactive).printAll resolved.shown
      have evaluated := lives'.evaluate order chosen own
      rw [onward] at evaluated
      exact ih evaluated

/-- The aliases of a session were built by calls. -/
theorem Lives.aliases {sh : Shell} (lives : Lives sh) :
    ∃ calls, sh.session.aliases = AliasTable.empty.afterAll calls := by
  induction lives with
  | start started => exact aliases_start started
  | @evaluate sh _ order line ended ih =>
      obtain ⟨calls, built⟩ := ih
      obtain ⟨more, grown⟩ :=
        (develops_evaluate (Job.runsBuiltins order) (Job.develops order) line (sh, ended)).aliases
      refine ⟨calls ++ more, ?_⟩
      rw [AliasTable.afterAll_append, ← built]
      exact grown
  | around _ _ _ ih => exact ih

theorem Lives.sound {sh : Shell} (lives : Lives sh) : sh.session.aliases.Sound := by
  obtain ⟨calls, built⟩ := lives.aliases
  rw [built]
  exact AliasTable.sound_afterAll AliasTable.sound_empty calls

end Shell

/-! ## Aliases of sessions -/

/-- Names are words, values are trimmed and hold one, and no walk along first words comes to a word
twice. -/
structure AliasTable.Orderly (t : AliasTable) : Prop where
  named : ∀ name value, t.get? name = some value → name ≠ "" ∧ Text.hasWhiteSpace name = false
  valued : ∀ name value, t.get? name = some value →
    Text.trim value = value ∧ Text.isBlank value = false
  onward : ∀ walk : List String, walk.IsChain t.Leads → walk.Nodup

theorem AliasTable.Sound.orderly {t : AliasTable} (sound : t.Sound) : t.Orderly :=
  ⟨sound.named, sound.valued, fun _ => nodup_of_chain sound.acyclic⟩

/-- Tables that were built by calls are orderly, in every session as well, and of the definitions
they refuse just those that would make a cycle. -/
theorem aliases_stay_acyclic_and_add_is_exact :
    (∀ calls, (AliasTable.empty.afterAll calls).Orderly) ∧
    (∀ sh, Shell.Lives sh → sh.session.aliases.Orderly) ∧
    ∀ calls name value, AliasTable.isValidName name = true → Text.isBlank value = false →
      AliasTable.AddsExactly (AliasTable.empty.afterAll calls) name value := by
  have sound := AliasTable.sound_afterAll AliasTable.sound_empty
  refine ⟨fun calls => (sound calls).orderly, fun sh lives => lives.sound.orderly, ?_⟩
  intro calls name value valid written
  exact AliasTable.addsExactly_of_sound (sound calls) valid written

/-- With `ll` for `ls -l` and `ls` for `exa`, the value `ll -a` of `exa` would lead back. -/
theorem aliases_stay_acyclic_with_exa :
    Shell.Lives bareShell ∧ bareShell.session.aliases.Orderly ∧
    AliasTable.isValidName "exa" = true ∧ Text.isBlank "ll -a" = false ∧
    AliasTable.AddsExactly (AliasTable.empty.afterAll [.add "ls" "exa", .add "ll" "ls -l"])
      "exa" "ll -a" := by
  have started : Shell.start { prompt := "$ " } Wiring.bareMachine = some bareShell := rfl
  have lives : Shell.Lives bareShell := .start started
  have valid : AliasTable.isValidName "exa" = true := by decide
  have written : Text.isBlank "ll -a" = false := by decide
  obtain ⟨-, orderly, adds⟩ := aliases_stay_acyclic_and_add_is_exact
  exact ⟨lives, orderly _ lives, valid, written, adds _ "exa" "ll -a" valid written⟩

end PipeShell
