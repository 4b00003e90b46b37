import PipeShell.Installation
import PipeShell.Invocation
import PipeShell.Proofs.FileSystem.Rewriting
import PipeShell.Proofs.Session.Staying

/-!
# Where settings are loaded from and saved to

A run of the shell looks up the path of its settings twice: before the session starts and when it
has ended.  The path without a `--config` is absolute, and so both times it is the same file.  A
relative path is the same file just when the shell ends in the directory in which it started, and
nothing but `cd` takes it away from there (`settings_are_saved_where_loaded`).
-/

set_option autoImplicit false

namespace PipeShell

/-! ## Looking up a path -/

/-- A path as it is looked up: from a directory. -/
structure Lookup where
  directory : Nat
  path : Bytes

namespace Lookup

/-- In every file tree and for every purpose, the two lead to the same place. -/
def Same (first second : Lookup) : Prop :=
  ∀ (fs : FileSystem) purpose,
    fs.resolve purpose first.directory first.path = fs.resolve purpose second.directory second.path

/-- No directory has a part in the path: it starts at the root, or it leads nowhere. -/
def Fixed (path : Bytes) : Prop :=
  Path.isAbsolute path = true ∨ path = [] ∨ Path.lengthLimit ≤ path.length

instance (path : Bytes) : Decidable (Fixed path) :=
  inferInstanceAs (Decidable (_ ∨ _ ∨ _))

theorem same_of_fixed {path : Bytes} (fixed : Fixed path) (here there : Nat) :
    Same ⟨here, path⟩ ⟨there, path⟩ := by
  intro fs purpose
  rcases fixed with absolute | rfl | long
  · simp only [FileSystem.resolve, absolute, if_true]
  · rfl
  · by_cases empty : path = []
    · rw [FileSystem.resolve, FileSystem.resolve, if_pos empty, if_pos empty]
    · rw [FileSystem.resolve, FileSystem.resolve, if_neg empty, if_neg empty, if_pos long,
        if_pos long]

/-- A file tree with a directory at one place only, an empty one that is its own parent. -/
def loneDirectory (directory : Nat) : FileSystem :=
  ⟨(Array.replicate directory (.device .null)).push (.directory directory [] false)⟩

theorem node?_loneDirectory (directory id : Nat) : (loneDirectory directory).node? id =
    if id = directory then some (.directory directory [] false)
    else if id < directory then some (.device .null) else none := by
  rw [FileSystem.node?, loneDirectory, Array.getElem?_push, Array.size_replicate,
    Array.getElem?_replicate]

/-- No step leads out of an empty directory that is its own parent. -/
theorem walk_loneDirectory (directory links : Nat) (purpose : FileSystem.Purpose)
    (steps : List Bytes) :
    let walked := (loneDirectory directory).walk purpose links directory steps
    walked ≠ .error .notDirectory ∧ ∀ id, walked = .ok (.node id) → id = directory := by
  have found := node?_loneDirectory directory directory
  rw [if_pos rfl] at found
  induction steps with
  | nil =>
      rw [FileSystem.walk]
      refine ⟨by rintro ⟨⟩, ?_⟩
      rintro id ⟨⟩
      rfl
  | cons name rest ih =>
      rw [FileSystem.walk, found]
      dsimp only
      split
      · exact ih
      · split
        · exact ih
        · rw [List.lookup_nil]
          dsimp only
          -- a name leads to a vacant place here, or it is refused
          split
          · exact ⟨by rintro ⟨⟩, by rintro _ ⟨⟩⟩
          · split
            · exact ⟨by rintro ⟨⟩, by rintro _ ⟨⟩⟩
            · by_cases last : rest = []
              · rw [if_pos last]
                exact ⟨by rintro ⟨⟩, by rintro _ ⟨⟩⟩
              · rw [if_neg last]
                exact ⟨by rintro ⟨⟩, by rintro _ ⟨⟩⟩

theorem walk_loneDirectory_elsewhere {directory other : Nat} (elsewhere : other ≠ directory)
    (links : Nat) (purpose : FileSystem.Purpose) (steps : List Bytes) :
    (loneDirectory directory).walk purpose links other steps =
      if steps = [] then .ok (.node other) else .error .notDirectory := by
  cases steps with
  | nil => rw [FileSystem.walk, if_pos rfl]
  | cons name rest =>
      rw [FileSystem.walk, node?_loneDirectory, if_neg elsewhere, if_neg (List.cons_ne_nil _ _)]
      by_cases below : other < directory
      · rw [if_pos below]
      · rw [if_neg below]

/-- A path in which directories have a part leads from different ones to different places. -/
theorem same_iff {here there : Nat} {path : Bytes} :
    Same ⟨here, path⟩ ⟨there, path⟩ ↔ Fixed path ∨ here = there := by
  constructor
  · intro same
    by_contra apart
    obtain ⟨⟨relative, named, short⟩, different⟩ : (Path.isAbsolute path = false ∧ path ≠ [] ∧
        ¬ Path.lengthLimit ≤ path.length) ∧ here ≠ there := by
      simpa [Fixed, not_or] using apart
    -- a tree in which only one of the two is a directory tells them apart
    have equal := same (loneDirectory here) .find
    simp only [FileSystem.resolve, if_neg named, ge_iff_le, if_neg short, relative,
      Bool.false_eq_true, if_false] at equal
    rw [walk_loneDirectory_elsewhere different.symm] at equal
    obtain ⟨unfailing, stays⟩ :=
      walk_loneDirectory here Path.linkLimit .find (Path.steps path)
    split at equal
    · exact different (stays there equal).symm
    · exact unfailing equal
  · rintro (fixed | rfl)
    · exact same_of_fixed fixed here there
    · exact fun _ _ => rfl

end Lookup

/-- How a machine looks up a path for its shell. -/
def Machine.lookup (m : Machine) (path : Bytes) : Lookup := ⟨m.cwd, path⟩

/-! ## A run, from loading to saving -/

namespace Invocation

variable (inv : Invocation) (filter : LogFilter) (path : Bytes)

/-- What comes before the first line: the settings are loaded on the machine. -/
def begin (m : Machine) : Option Shell :=
  let (settings, warnings) := loadSettings m path
  (Shell.start settings (writeWarnings filter warnings m)).map fun sh =>
    let sh := writeLog filter sh
    if inv.interactive then sh.print welcomeText else sh

/-- The shell with which the settings are saved. -/
def saving (sh : Shell) : Shell := writeLog filter sh

/-- What comes after the last line: the settings are saved, unless the shell did not survive. -/
def finish : Except Errno ReadLoop.Ending × Shell → Nat × Machine
  | (.ok .aborted, sh) => (abortedCode, sh.machine)
  | (.ok _, sh) =>
    (0, (Job.terminate (writeLog filter (saveSettings path (saving filter sh)))).machine)
  | (.error cause, sh) =>
    (failedCode,
      (Job.terminate (writeLog filter (saveSettings path (saving filter sh)))).machine.printError
        (failureText "reading input" cause))

theorem runSession_eq (m : Machine) : inv.runSession filter path m =
    match inv.begin filter path m with
    | none => (abortedCode, writeWarnings filter (loadSettings m path).2 m)
    | some sh => finish filter path (inv.readAll sh) := by
  unfold runSession begin
  dsimp only
  cases Shell.start (loadSettings m path).1 (writeWarnings filter (loadSettings m path).2 m) with
  | none => rfl
  | some sh =>
      simp only [Option.map_some]
      generalize inv.readAll _ = ended
      rcases ended with ⟨cause | ending, sh'⟩
      · rfl
      · cases ending <;> rfl

/-! ## Where the shell is in the meantime -/

theorem writeWarnings_eq (warnings : List Warning) (m : Machine) :
    ∃ errors, writeWarnings filter warnings m = { m with errors } := by
  unfold writeWarnings
  generalize warnings.filter filter.admits = admitted
  generalize Text.wantsColor m.env false = styled
  induction admitted generalizing m with
  | nil => exact ⟨m.errors, rfl⟩
  | cons warning others ih =>
      obtain ⟨errors, written⟩ := ih (m.printError _)
      exact ⟨errors, written⟩

theorem cwd_writeWarnings (warnings : List Warning) (m : Machine) :
    (writeWarnings filter warnings m).cwd = m.cwd := by
  obtain ⟨errors, written⟩ := writeWarnings_eq filter warnings m
  rw [written]

theorem cwd_start {settings : Settings} {m : Machine} {sh : Shell}
    (started : Shell.start settings m = some sh) : sh.machine.cwd = m.cwd := by
  obtain ⟨before, added, rfl⟩ := Option.map_eq_some_iff.mp started
  obtain ⟨env, rfl⟩ := Shell.addAllToPath_spec added
  obtain ⟨calls, log, adopted⟩ := Shell.adoptAliases_spec _ settings.aliases
  rw [adopted]

variable {inv filter path} in
theorem cwd_begin {m : Machine} {sh : Shell} (began : inv.begin filter path m = some sh) :
    sh.machine.cwd = m.cwd := by
  obtain ⟨before, started, rfl⟩ := Option.map_eq_some_iff.mp began
  have logged : (writeLog filter before).machine.cwd = m.cwd := by
    rw [writeLog, cwd_writeWarnings, cwd_start started, cwd_writeWarnings]
  dsimp only
  split
  · exact logged
  · exact logged

/-- Without a `--config`, the path starts at the root. -/
theorem isAbsolute_settingsPath {options : Options} {m : Machine}
    (default : options.config = none) (located : settingsPath options m = .ok path) :
    Path.isAbsolute path = true := by
  have relative : Path.isAbsolute (Text.encode Settings.fileName) = false := by decide +kernel
  rw [settingsPath, default] at located
  dsimp only at located
  unfold Machine.workingDirectory FileSystem.pathOf at located
  split at located
  · next names _ =>
      have joined : Path.join (Path.absolute names) (Text.encode Settings.fileName) = path :=
        Except.ok.inj located
      rw [← joined, Path.join, relative, Path.absolute]
      simp only [Bool.false_eq_true, if_false]
      split <;> rfl
  · cases located

/-- The lines that the run evaluates. -/
def evaluations (sh : Shell) : List (ReadLoop.Evaluation (List WaitStatus)) :=
  match inv.input with
  | .ok bytes =>
    (ReadLoop.course (Job.launcher .joinAdoptExec) inv.interactive bytes (sh, [])).evaluations
  | .error _ => []

/-- A line that the run evaluates stands for a call of the builtin. -/
def CallsBuiltin (sh : Shell) (b : Builtin) : Prop :=
  ∃ e ∈ inv.evaluations sh, ∃ argv, e.before.1.context.Calls e.line b argv

theorem cwd_readAll {sh : Shell} (still : ¬ inv.CallsBuiltin sh .cd) :
    (inv.readAll sh).2.machine.cwd = sh.machine.cwd := by
  unfold readAll
  cases input : inv.input with
  | error cause => exact (Shell.Stays.ask sh inv.interactive).cwd
  | ok bytes =>
      dsimp only
      rw [ReadLoop.run_eq_course]
      refine ReadLoop.keeps_course (P := fun sh' => sh'.machine.cwd = sh.machine.cwd)
        (fun held stays => stays.cwd.trans held) _ _ _ _ ?_ rfl
      intro e member b argv calls held
      have other : b ≠ .cd := by
        rintro rfl
        refine still ⟨e, ?_, argv, calls⟩
        rwa [evaluations, input]
      rw [Builtin.cwd_run_of_ne {} e.before.1 other argv, held]

/-! ## A directory to go to -/

/-- Where there is no settings file, a session starts with the default settings. -/
theorem begin_of_vacant (quiet : inv.interactive = false) {m : Machine} {directory : Nat}
    {name : Bytes} (legal : Machine.pathFault? path = none)
    (vacant : m.files.resolve .find m.cwd path = .ok (.vacant directory name)) :
    inv.begin filter path m =
      some { session := .fresh ({} : Settings).prompt, machine := m, log := [] } := by
  have defaults : loadSettings m path = ({}, []) := by
    rw [loadSettings, Settings.loadAt, Machine.readAt, legal]
    dsimp only
    rw [FileSystem.findReadable, FileSystem.find, vacant]
    rfl
  rw [begin, defaults, quiet]
  rfl

/-- A machine with a directory to go to. -/
def roomyMachine : Machine :=
  Installation.machine ⟨#[.directory FileSystem.root [(Text.encode "d", 1)] false,
    .directory FileSystem.root [] false]⟩ FileSystem.root .empty

theorem resolve_roomyMachine (path name : Bytes) (named : path ≠ [])
    (short : ¬ Path.lengthLimit ≤ path.length) (steps : Path.steps path = [name])
    (proper : FileSystem.IsEntryName name) (other : name ≠ Text.encode "d") :
    roomyMachine.files.resolve .find roomyMachine.cwd path =
      .ok (.vacant FileSystem.root name) := by
  have found : roomyMachine.files.node? FileSystem.root =
      some (.directory FileSystem.root [(Text.encode "d", 1)] false) := rfl
  have absent : [(Text.encode "d", 1)].lookup name = none := by
    rw [List.lookup_cons, beq_false_of_ne other, List.lookup_nil]
  have start : (if Path.isAbsolute path then FileSystem.root else roomyMachine.cwd) =
      FileSystem.root := ite_self _
  rw [FileSystem.resolve, if_neg named, if_neg short, start, steps]
  exact FileSystem.walk_of_absent found proper absent .find

theorem changeDirectory_roomyMachine (complaints : String) :
    (roomyMachine.printError complaints).changeDirectory "d" =
      .ok { roomyMachine.printError complaints with cwd := 1 } := by
  have outside : roomyMachine.files.node? FileSystem.root =
      some (.directory FileSystem.root [(Text.encode "d", 1)] false) := rfl
  have final : ∀ target, roomyMachine.files.node? 1 ≠ some (.link target) := by
    rintro target ⟨⟩
  have steps : Path.steps (Text.encode "d") = [Text.encode "d"] := by decide +kernel
  have walked : roomyMachine.files.resolve .find FileSystem.root (Text.encode "d") =
      .ok (.node 1) := by
    rw [FileSystem.resolve, if_neg (by decide +kernel), if_neg (by decide +kernel), ite_self, steps]
    dsimp only
    rw [FileSystem.walk_find_of_entry outside (by decide +kernel) rfl final, FileSystem.walk]
  have found : (roomyMachine.printError complaints).files.findDirectory
      (roomyMachine.printError complaints).cwd (Text.encode "d") = .ok 1 := by
    show roomyMachine.files.findDirectory FileSystem.root (Text.encode "d") = .ok 1
    rw [FileSystem.findDirectory, FileSystem.find_of_resolve walked]
    rfl
  rw [Machine.changeDirectory, show Machine.pathFault? (Text.encode "d") = none by decide +kernel]
  dsimp only
  rw [found]

/-- A run that goes to another directory. -/
def leaving (arguments : List String) : Invocation :=
  { arguments, input := .ok (Text.encode "cd d"), interactive := false }

/-- A new session on that machine. -/
def roomyShell (complaints : String) : Shell :=
  { session := .fresh ({} : Settings).prompt, machine := roomyMachine.printError complaints
    log := [] }

theorem calls_roomyShell (complaints : String) :
    ((roomyShell complaints).remember "cd d").context.Calls "cd d" .cd ["cd", "d"] := by
  refine ⟨{ stages := [{ name := "cd", argv := ["cd", "d"], isBuiltin := true, input := .stdio
                         output := .stdio }]
            inputFile := none
            outputFile := none }, _, ?_, rfl, rfl, by decide, rfl⟩
  show compile ((roomyShell "").remember "cd d").context "cd d" = _
  decide +kernel

theorem cwd_leaving (arguments : List String) (complaints : String) :
    (saving filter ((leaving arguments).readAll (roomyShell complaints)).2).machine.cwd = 1 := by
  have only : ReadLoop.nextLine (Text.encode "cd d") = some ("cd d", []) := by decide +kernel
  have ran : ((leaving arguments).readAll (roomyShell complaints)).2 =
      (ReadLoop.evaluate (Job.launcher .joinAdoptExec) "cd d" (roomyShell complaints, [])).2.1 :=
    congrArg Prod.fst (ReadLoop.world_run_of_line only (by decide +kernel))
  obtain ⟨env, there⟩ := Builtin.machine_runCd {} ((roomyShell complaints).remember "cd d")
    (changeDirectory_roomyMachine complaints)
  have called := (@stays_eval_of_calls .joinAdoptExec "cd d"
    ((roomyShell complaints).remember "cd d", []) .cd ["cd", "d"]
    (calls_roomyShell complaints)).cwd
  have reported := (ReadLoop.stays_evaluate .joinAdoptExec "cd d" (roomyShell complaints, [])).2.cwd
  rw [saving, writeLog, cwd_writeWarnings, ran, reported]
  exact called.trans (congrArg Machine.cwd there)

/-! ## Loading and saving -/

/-- A run looks up the path of its settings on the machine that it finds, and again on the shell that
it ends with.  Without a `--config` the path is absolute.  The two lead to the same place just when
directories have no part in the path or the shell is again where it was, and it is there unless a
line has called `cd`. -/
theorem settings_are_saved_where_loaded (options : Options) (m : Machine)
    (requested : CommandLine.request inv.arguments = .run options)
    (located : settingsPath options m = .ok path) :
    let filter := logFilter options m
    let found := m.printError filter.complaints
    (inv.run m = match inv.begin filter path found with
      | none => (abortedCode, writeWarnings filter (loadSettings found path).2 found)
      | some sh => finish filter path (inv.readAll sh)) ∧
    (options.config = none → Path.isAbsolute path = true) ∧
    ∀ sh, inv.begin filter path found = some sh →
      let ended := saving filter (inv.readAll sh).2
      ((found.lookup path).Same (ended.machine.lookup path) ↔
        Lookup.Fixed path ∨ ended.machine.cwd = m.cwd) ∧
      (ended.machine.cwd ≠ m.cwd → inv.CallsBuiltin sh .cd) := by
  intro filter found
  refine ⟨?_, fun default => isAbsolute_settingsPath path default located, ?_⟩
  · have located' : settingsPath options found = .ok path := located
    rw [run, requested]
    dsimp only
    rw [runWith, located']
    exact inv.runSession_eq filter path found
  · intro sh began ended
    refine ⟨?_, ?_⟩
    · rw [Machine.lookup, Machine.lookup, Lookup.same_iff, eq_comm]
      rfl
    · intro moved
      by_contra still
      apply moved
      show (saving filter (inv.readAll sh).2).machine.cwd = m.cwd
      rw [saving, writeLog, cwd_writeWarnings, inv.cwd_readAll still, cwd_begin began]
      rfl

/-- The settings of the starting directory stay where they are, wherever the shell goes. -/
theorem settings_are_saved_where_loaded_by_default :
    let options : Options := { config := none, verbose := false }
    let path := Text.encode "/psh.toml"
    let filter := logFilter options roomyMachine
    let found := roomyMachine.printError filter.complaints
    CommandLine.request [] = .run options ∧ settingsPath options roomyMachine = .ok path ∧
    ∃ sh, (leaving []).begin filter path found = some sh ∧
      let ended := saving filter ((leaving []).readAll sh).2
      ended.machine.cwd = 1 ∧ (found.lookup path).Same (ended.machine.lookup path) := by
  intro options path filter found
  have requested : CommandLine.request [] = .run options := by decide +kernel
  have located : settingsPath options roomyMachine = .ok path := by decide +kernel
  have vacant := resolve_roomyMachine path (Text.encode "psh.toml") (by decide +kernel)
    (by decide +kernel) (by decide +kernel) (by decide +kernel) (by decide +kernel)
  have began := (leaving []).begin_of_vacant filter path rfl (m := found) (by decide +kernel) vacant
  obtain ⟨-, absolute, places⟩ :=
    settings_are_saved_where_loaded (leaving []) path options roomyMachine requested located
  exact ⟨requested, located, _, began, cwd_leaving filter [] _,
    (places _ began).1.mpr (.inl (.inl (absolute rfl)))⟩

/-- A relative path of a `--config` leads elsewhere after a `cd`. -/
theorem relative_settings_path_moves :
    let options : Options := { config := some "conf.toml", verbose := false }
    let path := Text.encode "conf.toml"
    let filter := logFilter options roomyMachine
    let found := roomyMachine.printError filter.complaints
    let inv := leaving ["--config", "conf.toml"]
    CommandLine.request inv.arguments = .run options ∧
    settingsPath options roomyMachine = .ok path ∧
    ∃ sh, inv.begin filter path found = some sh ∧
      let ended := saving filter (inv.readAll sh).2
      found.lookup path = ⟨FileSystem.root, path⟩ ∧ ended.machine.lookup path = ⟨1, path⟩ ∧
      ¬ (found.lookup path).Same (ended.machine.lookup path) := by
  intro options path filter found inv
  have vacant := resolve_roomyMachine path path (by decide +kernel) (by decide +kernel)
    (by decide +kernel) (by decide +kernel) (by decide +kernel)
  have began := inv.begin_of_vacant filter path rfl (m := found) (by decide +kernel) vacant
  have moved := cwd_leaving filter inv.arguments filter.complaints
  refine ⟨by decide +kernel, by decide +kernel, _, began, rfl, congrArg (Lookup.mk · path) moved, ?_⟩
  intro same
  rcases Lookup.same_iff.mp same with fixed | stayed
  · exact absurd fixed (by decide +kernel)
  · exact absurd (stayed.trans moved) (by decide)

end Invocation

end PipeShell
