import PipeShell.Proofs.FileSystem.Rewriting
import PipeShell.Proofs.Session.Development
import PipeShell.Proofs.Session.Survival

/-!
# Sessions that start anew

A session starts from any settings whose directories hold no NUL, and calls of `alias`, `unalias`
and `set` keep it in a state whose settings lose nothing (`Settled`): the aliases are sound, so each
of them is taken over again whatever order they come in, and the directories can be added again.  So
its settings give a session with just these settings, without a warning, and they do so as well
after they were saved to a file and loaded from it (`settings_survive_restart`).
-/

set_option autoImplicit false

namespace PipeShell

namespace Shell

/-! ## Starting -/

section Starting

variable {sh : Shell}

theorem adoptAliases_of_sound {full : AliasTable} (sound : full.Sound)
    (empty : sh.session.aliases = .empty) :
    sh.adoptAliases full.bindings = { sh with session := { sh.session with aliases := full } } :=
  foldl_adoptAlias_of_addAll (empty ▸ AliasTable.addAll_toList sound)

/-- Directories without a NUL are all added; what is left of starting is to adopt the aliases. -/
theorem start_of_nulFree {settings : Settings} {machine : Machine}
    (free : ∀ directory ∈ settings.paths, Text.NulFree directory)
    (clean : machine.env.PathNulFree) :
    ∃ env, Environment.PathNulFree env ∧ start settings machine = some (adoptAliases
      { session := { Session.fresh settings.prompt with addedPaths := settings.paths }
        machine := { machine with env }
        log := [] } settings.aliases) := by
  let fresh : Shell := { session := .fresh settings.prompt, machine, log := [] }
  have clean₀ : fresh.machine.env.PathNulFree := clean
  obtain ⟨env, clean', added⟩ := addAllToPath_of_nulFree clean₀ free
  refine ⟨env, clean', ?_⟩
  rw [start, added]
  rfl

/-- From settings that lose nothing, a session starts with all of them. -/
theorem start_of_sound {settings : Settings} {machine : Machine}
    (free : ∀ directory ∈ settings.paths, Text.NulFree directory)
    (clean : machine.env.PathNulFree) (sound : AliasTable.Sound ⟨settings.aliases⟩) :
    ∃ sh, start settings machine = some sh ∧ sh.session.settings = settings ∧ sh.log = [] := by
  obtain ⟨env, -, started⟩ := start_of_nulFree free clean
  exact ⟨_, by rw [started, adoptAliases_of_sound sound rfl], rfl, rfl⟩

end Starting

/-! ## Calls -/

/-- The settings of the shell lose nothing when a session starts from them. -/
structure Settled (sh : Shell) : Prop where
  aliases : sh.session.aliases.Sound
  paths : ∀ directory ∈ sh.session.addedPaths, Text.NulFree directory
  search : sh.machine.env.PathNulFree

/-- Whatever aliases are saved in the settings, the session that starts is settled. -/
theorem settled_start {settings : Settings} {machine : Machine}
    (free : ∀ directory ∈ settings.paths, Text.NulFree directory)
    (clean : machine.env.PathNulFree) :
    ∃ sh, start settings machine = some sh ∧ sh.Settled := by
  obtain ⟨env, clean', started⟩ := start_of_nulFree free clean
  obtain ⟨calls, log, adopted⟩ := adoptAliases_spec
    { session := { Session.fresh settings.prompt with addedPaths := settings.paths }
      machine := { machine with env }
      log := [] } settings.aliases
  refine ⟨_, by rw [started, adopted], ?_, free, clean'⟩
  exact AliasTable.sound_afterAll AliasTable.sound_empty calls

end Shell

/-- A call of a builtin, and where it prints. -/
structure BuiltinCall where
  builtin : Builtin
  argv : List String
  sink : Sink

namespace BuiltinCall

/-- The builtin is one that may change a session, and its arguments are free of NULs. -/
def Clean (call : BuiltinCall) : Prop :=
  call.builtin.Changes ∧ ∀ arg ∈ call.argv, Text.NulFree arg

def outcome (call : BuiltinCall) (sh : Shell) : Builtin.Outcome :=
  (call.builtin.run call.argv call.sink sh).1

end BuiltinCall

namespace Shell

variable {sh : Shell}

def afterCall (sh : Shell) (call : BuiltinCall) : Shell :=
  (call.builtin.run call.argv call.sink sh).2.2

def afterCalls (sh : Shell) (calls : List BuiltinCall) : Shell :=
  calls.foldl afterCall sh

theorem settled_of_idle {result : Builtin.Outcome × Sink × Shell} (settled : sh.Settled)
    (idle : Builtin.Idle sh result) : result.1 ≠ .aborted ∧ result.2.2.Settled :=
  ⟨idle.1, idle.2 ▸ settled⟩

/-- What may change a session keeps it settled, and the shell survives it. -/
theorem settled_afterCall (settled : sh.Settled) {call : BuiltinCall} (clean : call.Clean) :
    call.outcome sh ≠ .aborted ∧ (sh.afterCall call).Settled := by
  obtain ⟨b, argv, sink⟩ := call
  obtain ⟨rfl | rfl | rfl, free⟩ := clean
  · rcases Builtin.runDefineAlias_cases (argv.drop 1) sink sh with
      idle | ⟨name, value, aliases, added, result⟩
    · exact settled_of_idle settled idle
    · rw [BuiltinCall.outcome, afterCall, Builtin.run, result]
      refine ⟨by rintro ⟨⟩, ?_, settled.paths, settled.search⟩
      show aliases.Sound
      rw [← AliasTable.after_of_add added]
      exact AliasTable.sound_after settled.aliases _
  · rcases Builtin.runRemoveAlias_cases (argv.drop 1) sink sh with
      idle | ⟨name, aliases, removed, result⟩
    · exact settled_of_idle settled idle
    · rw [BuiltinCall.outcome, afterCall, Builtin.run, result]
      refine ⟨by rintro ⟨⟩, ?_, settled.paths, settled.search⟩
      show aliases.Sound
      rw [← AliasTable.after_of_remove removed]
      exact AliasTable.sound_after settled.aliases _
  · rcases Builtin.runSet_cases (argv.drop 1) sink sh with
      idle | ⟨directories, args, cases⟩ | ⟨prompt, -, result⟩
    · exact settled_of_idle settled idle
    · have free' : ∀ directory ∈ directories, Text.NulFree directory := fun directory member =>
        free directory (List.mem_of_mem_drop (args ▸ List.mem_cons_of_mem _ member))
      obtain ⟨env, clean, added⟩ := addAllToPath_of_nulFree settled.search free'
      rcases cases with ⟨refused, -⟩ | ⟨sh', added', result⟩
      · rw [added] at refused
        cases refused
      · obtain rfl := Option.some.inj (added.symm.trans added')
        rw [BuiltinCall.outcome, afterCall, Builtin.run, result]
        refine ⟨by rintro ⟨⟩, settled.aliases, ?_, clean⟩
        exact List.forall_mem_append.mpr ⟨settled.paths, free'⟩
    · rw [BuiltinCall.outcome, afterCall, Builtin.run, result]
      exact ⟨by rintro ⟨⟩, settled.aliases, settled.paths, settled.search⟩

theorem settled_afterCalls (settled : sh.Settled) {calls : List BuiltinCall}
    (clean : ∀ call ∈ calls, call.Clean) : (sh.afterCalls calls).Settled := by
  induction calls generalizing sh with
  | nil => exact settled
  | cons call calls ih =>
      exact ih (settled_afterCall settled (clean call List.mem_cons_self)).2
        fun other member => clean other (List.mem_cons_of_mem _ member)

end Shell

/-! ## Settings that are handed on -/

namespace Settings

/-- What is saved to a file is loaded from it, if its text can be read at all. -/
theorem load_of_save {t : Settings} {m m' : Machine} {path : String} (regular : m.HasFileAt path)
    (saved : t.save m path = .ok m') (readable : parse? t.render = some t) :
    load m' path = .ok t := by
  have written : m.writeWhole path t.render.toUTF8 = .ok m' := by
    rw [save, saveAt] at saved
    split at saved
    · cases saved
    · next written => rwa [Except.ok.inj saved] at written
  have held := Machine.readWhole_of_writeWhole regular written
  rw [Machine.readWhole] at held
  rw [load, loadAt, held]
  dsimp only
  rw [Text.fromUTF8?_toUTF8]
  dsimp only
  rw [readable]

/-- Nothing of the settings is lost on the way to another session.  They may also pass through a
regular file that their owner may read; other things that a path can name, such as a device, do not
keep what is written to them. -/
structure Durable (t : Settings) : Prop where
  restarts : ∀ machine : Machine, machine.env.PathNulFree →
    ∃ sh, Shell.start t machine = some sh ∧ sh.session.settings = t ∧ sh.log = []
  loaded : ∀ (m m' : Machine) (path : String), m.HasFileAt path → t.save m path = .ok m' →
    parse? t.render = some t → load m' path = .ok t

end Settings

theorem Shell.Settled.durable {sh : Shell} (settled : sh.Settled) :
    sh.session.settings.Durable where
  restarts _ clean := Shell.start_of_sound settled.paths clean settled.aliases
  loaded _ _ _ regular saved readable := Settings.load_of_save regular saved readable

/-! ## Restarts -/

/-- Settings with two aliases that lead to each other and one that stands for nothing. -/
def loopedSettings : Settings where
  prompt := "$ "
  paths := ["/opt/bin"]
  aliases := Dictionary.ofList [("a", "b"), ("b", "a"), ("c", " ")]

def customizingCalls : List BuiltinCall :=
  [{ builtin := .defineAlias, argv := ["alias", "ll=\"ls", "-l\""], sink := {} },
    { builtin := .defineAlias, argv := ["alias", "b=ll"], sink := {} },
    { builtin := .removeAlias, argv := ["unalias", "c"], sink := {} },
    { builtin := .set, argv := ["set", "path", "/x"], sink := {} },
    { builtin := .set, argv := ["set", "prompt", ">"], sink := {} }]

def customizedSettings : Settings where
  prompt := ">"
  paths := ["/opt/bin", "/x"]
  aliases := Dictionary.ofList [("a", "b"), ("b", "ll"), ("ll", "ls -l")]

/-- On a machine with nothing on it there is no settings file yet. -/
theorem resolve_bareMachine (purpose : FileSystem.Purpose) :
    Wiring.bareMachine.files.resolve purpose Wiring.bareMachine.cwd (Text.encode "psh.toml") =
      .ok (.vacant FileSystem.root (Text.encode "psh.toml")) := by
  have steps : Path.steps (Text.encode "psh.toml") = [Text.encode "psh.toml"] := by decide +kernel
  have found : Wiring.bareMachine.files.node? FileSystem.root =
      some (.directory FileSystem.root [] false) := rfl
  rw [FileSystem.resolve, if_neg (by decide +kernel), if_neg (by decide +kernel), steps]
  exact FileSystem.walk_of_absent found (by decide +kernel) rfl purpose

theorem exists_save_bareMachine (t : Settings) :
    ∃ m', t.save Wiring.bareMachine "psh.toml" = .ok m' := by
  have faultless : Machine.pathFault? (Text.encode "psh.toml") = none := by decide +kernel
  have found : Wiring.bareMachine.files.node? FileSystem.root =
      some (.directory FileSystem.root [] false) := rfl
  simp [Settings.save, Settings.saveAt, Machine.writeAt, faultless, FileSystem.recreate,
    FileSystem.findForWriting, resolve_bareMachine, found, FileSystem.snd_link found,
    FileSystem.node?_link found]

/-- A session starts from any settings without NULs in their directories, and it survives calls that
change it.  What its settings then are is durable. -/
theorem settings_survive_restart (s : Settings) (machine : Machine) (calls : List BuiltinCall)
    (free : ∀ directory ∈ s.paths, Text.NulFree directory) (clean : machine.env.PathNulFree)
    (allClean : ∀ call ∈ calls, call.Clean) :
    ∃ sh, Shell.start s machine = some sh ∧
      (∀ before call behind, calls = before ++ call :: behind →
        call.outcome (sh.afterCalls before) ≠ .aborted) ∧
      (sh.afterCalls calls).machine.env.PathNulFree ∧
      (sh.afterCalls calls).session.settings.Durable := by
  obtain ⟨sh, started, settled⟩ := Shell.settled_start free clean
  have final := Shell.settled_afterCalls settled allClean
  refine ⟨sh, started, ?_, final.search, final.durable⟩
  rintro before call behind rfl
  have earlier := Shell.settled_afterCalls settled
    fun other member => allClean other (List.mem_append_left _ member)
  exact (Shell.settled_afterCall earlier (allClean call (by simp))).1

theorem settings_survive_restart_of_looped :
    (∀ directory ∈ loopedSettings.paths, Text.NulFree directory) ∧
    Wiring.bareMachine.env.PathNulFree ∧ (∀ call ∈ customizingCalls, call.Clean) ∧
    (∃ sh, Shell.start loopedSettings Wiring.bareMachine = some sh ∧
      (sh.afterCalls customizingCalls).session.settings = customizedSettings) ∧
    (∃ sh, Shell.start customizedSettings Wiring.bareMachine = some sh ∧
      sh.session.settings = customizedSettings ∧ sh.log = []) ∧
    ∃ m', customizedSettings.save Wiring.bareMachine "psh.toml" = .ok m' ∧
      Settings.load m' "psh.toml" = .ok customizedSettings := by
  have free : ∀ directory ∈ loopedSettings.paths, Text.NulFree directory := by decide
  have clean : Wiring.bareMachine.env.PathNulFree := by
    rintro list ⟨⟩
  have allClean : ∀ call ∈ customizingCalls, call.Clean := by
    simp only [customizingCalls, List.forall_mem_cons, BuiltinCall.Clean, Builtin.Changes]
    decide
  have customized : (Shell.start loopedSettings Wiring.bareMachine).map
      (fun sh => (sh.afterCalls customizingCalls).session.settings) = some customizedSettings := by
    decide +kernel
  obtain ⟨sh, started, -, -, durable⟩ :=
    settings_survive_restart loopedSettings Wiring.bareMachine customizingCalls free clean allClean
  rw [started] at customized
  have same : (sh.afterCalls customizingCalls).session.settings = customizedSettings :=
    Option.some.inj customized
  rw [same] at durable
  have nothing : Wiring.bareMachine.HasFileAt "psh.toml" := by
    intro id found
    rw [FileSystem.find, resolve_bareMachine] at found
    cases found
  have readable : Settings.parse? customizedSettings.render = some customizedSettings := by
    decide +kernel
  obtain ⟨m', saved⟩ := exists_save_bareMachine customizedSettings
  exact ⟨free, clean, allClean, ⟨sh, started, same⟩, durable.restarts _ clean, m', saved,
    durable.loaded _ m' "psh.toml" nothing saved readable⟩

end PipeShell
