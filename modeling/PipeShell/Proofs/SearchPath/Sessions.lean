import PipeShell.Proofs.SearchPath.Adding
import PipeShell.Proofs.Session.Staying
import PipeShell.Proofs.Settings.Restart

/-!
# The search list of a session

A session keeps the search list twice: as the value of `PATH`, and as the directories that it has
added, which are saved.  The two never part: `PATH` is at any time what it was at first with the
added directories behind it, one after the other (`Shell.Grown`).  So a session that starts from
what was saved, with the same `PATH`, has the same list (`search_list_survives_restart`).
-/

set_option autoImplicit false

namespace PipeShell

/-! ## Adding one directory after the other -/

namespace SearchPath

variable {stored : Option Bytes} {directories : List String}

/-- The value of `PATH` once the directories are added, when it was this. -/
def grown (stored : Option Bytes) (directories : List String) : Option Bytes :=
  directories.foldl (fun stored directory => some (Text.encode (extended stored directory))) stored

theorem grown_append (first second : List String) :
    grown stored (first ++ second) = grown (grown stored first) second :=
  List.foldl_append

/-- The directories that are named, one list of them after the other. -/
def named (directories : List String) : List Bytes :=
  directories.flatMap fun directory => namedIn (Text.encode directory)

theorem listedIn_grown (readable : Readable stored) (directories : List String) :
    listedIn (grown stored directories) = listedIn stored ++ named directories := by
  induction directories generalizing stored with
  | nil => exact (List.append_nil _).symm
  | cons directory directories ih =>
      have text : Readable (some (Text.encode (extended stored directory))) := by
        rintro _ ⟨⟩
        rw [Text.decode?_encode]
        rfl
      have first : listedIn (some (Text.encode (extended stored directory))) =
          listedIn stored ++ namedIn (Text.encode directory) := namedIn_extended readable directory
      rw [grown, List.foldl_cons, ← grown, ih text, first, List.append_assoc]
      rfl

theorem nulFree_extended {directory : String} (clean : ∀ list, stored = some list → 0 ∉ list)
    (free : Text.NulFree directory) : Text.NulFree (extended stored directory) := by
  unfold extended
  split
  · next old read =>
      obtain ⟨list, bound, decoded⟩ := Option.bind_eq_some_iff.mp read
      have encoded := Text.encode_of_decode? decoded
      -- the old text is what the environment holds
      have kept : Text.NulFree old := by
        by_contra holds
        exact clean list bound (encoded ▸ (Text.zero_mem_encode_iff old).mpr holds)
      have colon : Text.NulFree ":" := by decide
      split
      · exact free
      · exact Text.nulFree_append.mpr ⟨Text.nulFree_append.mpr ⟨kept, colon⟩, free⟩
  · exact free

theorem nulFree_grown (clean : ∀ list, stored = some list → 0 ∉ list)
    (free : ∀ directory ∈ directories, Text.NulFree directory) :
    ∀ list, grown stored directories = some list → 0 ∉ list := by
  induction directories generalizing stored with
  | nil => exact clean
  | cons directory directories ih =>
      refine ih ?_ fun other member => free other (List.mem_cons_of_mem _ member)
      rintro _ ⟨⟩ zero
      exact (Text.zero_mem_encode_iff _).mp zero
        (nulFree_extended clean (free directory List.mem_cons_self))

end SearchPath

open SearchPath (grown listed listedIn named)

namespace Shell

variable {sh sh' : Shell} {directories : List String} {first : Option Bytes}

theorem get?_of_addAllToPath (added : sh.addAllToPath directories = some sh') :
    sh'.machine.env.get? Environment.pathName =
      grown (sh.machine.env.get? Environment.pathName) directories := by
  induction directories generalizing sh with
  | nil =>
      cases added
      rfl
  | cons directory directories ih =>
      rw [addAllToPath, List.foldlM_cons] at added
      obtain ⟨between, one, others⟩ := Option.bind_eq_some_iff.mp added
      obtain ⟨env, stored, rfl⟩ := Option.map_eq_some_iff.mp one
      rw [ih others, Environment.get?_of_addToPath stored, if_pos rfl]
      rfl

/-- `PATH` is what it was at first, with the directories behind it that the session has added. -/
def Grown (first : Option Bytes) (sh : Shell) : Prop :=
  sh.machine.env.get? Environment.pathName = grown first sh.session.addedPaths

theorem Grown.listed (held : sh.Grown first) (readable : SearchPath.Readable first) :
    listed sh.machine.env = listedIn first ++ named sh.session.addedPaths := by
  rw [SearchPath.listed, held, SearchPath.listedIn_grown readable]

theorem Grown.stays (held : sh.Grown first) (stays : sh.Stays sh') : sh'.Grown first := by
  rw [Grown, stays.env, stays.addedPaths]
  exact held

theorem Grown.addAllToPath (held : sh.Grown first)
    (added : sh.addAllToPath directories = some sh') : sh'.Grown first := by
  have value := get?_of_addAllToPath added
  obtain ⟨env, rfl⟩ := addAllToPath_spec added
  rw [Grown, value, held, SearchPath.grown_append]

/-- When a session starts, the saved directories are behind `PATH`. -/
theorem grown_start {settings : Settings} {machine : Machine}
    (started : start settings machine = some sh) :
    sh.Grown (machine.env.get? Environment.pathName) ∧ sh.session.addedPaths = settings.paths := by
  obtain ⟨before, added, rfl⟩ := Option.map_eq_some_iff.mp started
  have held : before.Grown (machine.env.get? Environment.pathName) :=
    Grown.addAllToPath (by exact rfl) added
  obtain ⟨env, rfl⟩ := addAllToPath_spec added
  obtain ⟨calls, log, adopted⟩ := adoptAliases_spec _ settings.aliases
  rw [adopted]
  exact ⟨held, rfl⟩

end Shell

/-! ## Calls -/

/-- The directories that arguments of `set` name. -/
def Builtin.directoriesOf : List String → List String
  | "path" :: directories => directories
  | _ => []

/-- The directories that the call is to add. -/
def BuiltinCall.adds (call : BuiltinCall) : List String :=
  if call.builtin = .set then Builtin.directoriesOf (call.argv.drop 1) else []

namespace Shell

variable {sh sh' : Shell} {first : Option Bytes}

/-- The directories were added, to `PATH` and to those that the session knows of. -/
structure Adds (sh : Shell) (directories : List String) (sh' : Shell) : Prop where
  added : sh'.session.addedPaths = sh.session.addedPaths ++ directories
  value : sh'.machine.env.get? Environment.pathName =
    grown (sh.machine.env.get? Environment.pathName) directories

theorem Adds.grown {directories : List String} (adds : sh.Adds directories sh')
    (held : sh.Grown first) : sh'.Grown first := by
  rw [Grown, adds.value, adds.added, SearchPath.grown_append, held]

theorem adds_runSet (args : List String) (sink : Sink) (sh : Shell) :
    (Builtin.runSet args sink sh).1 = .aborted ∧ (Builtin.runSet args sink sh).2.2 = sh ∨
      sh.Adds (Builtin.directoriesOf args) (Builtin.runSet args sink sh).2.2 := by
  have nothing : sh.Adds [] sh := ⟨(List.append_nil _).symm, rfl⟩
  unfold Builtin.runSet
  split
  · exact .inr nothing
  · next directory more =>
      cases outcome : sh.addAllToPath (directory :: more) with
      | none => exact .inl ⟨rfl, rfl⟩
      | some sh' =>
          have value := get?_of_addAllToPath outcome
          obtain ⟨env, rfl⟩ := addAllToPath_spec outcome
          exact .inr ⟨rfl, value⟩
  · exact .inr ⟨(List.append_nil _).symm, rfl⟩
  · next empty unlisted prompted =>
      -- without a directory there is nothing to add
      have none : Builtin.directoriesOf args = [] := by
        unfold Builtin.directoriesOf
        split
        · next directories =>
            cases directories with
            | nil => rfl
            | cons directory more => exact absurd rfl (unlisted directory more)
        · rfl
      rw [none]
      exact .inr nothing

/-- A call adds its directories, or the shell does not survive it. -/
theorem adds_afterCall (sh : Shell) (call : BuiltinCall) :
    call.outcome sh = .aborted ∧ sh.afterCall call = sh ∨ sh.Adds call.adds (sh.afterCall call) := by
  obtain ⟨b, argv, sink⟩ := call
  by_cases listing : b = .set
  · subst listing
    exact adds_runSet (argv.drop 1) sink sh
  · have nothing : BuiltinCall.adds ⟨b, argv, sink⟩ = [] := if_neg listing
    rw [nothing]
    refine .inr ⟨?_, ?_⟩
    · rw [List.append_nil]
      exact Builtin.addedPaths_run_of_ne sink sh listing argv
    · by_cases going : b = .cd
      · subst going
        exact Builtin.get?_runCd (argv.drop 1) sink sh (by decide)
      · exact congrArg (fun m : Machine => m.env.get? Environment.pathName)
          (Builtin.machine_run_of_ne sink sh going listing argv)

theorem Grown.afterCall (held : sh.Grown first) (call : BuiltinCall) :
    (sh.afterCall call).Grown first := by
  rcases adds_afterCall sh call with ⟨-, same⟩ | adds
  · rwa [same]
  · exact adds.grown held

theorem survives_afterCall (clean : sh.machine.env.PathNulFree) {call : BuiltinCall}
    (free : ∀ directory ∈ call.adds, Text.NulFree directory) :
    call.outcome sh ≠ .aborted ∧ sh.Adds call.adds (sh.afterCall call) := by
  have survived : call.outcome sh ≠ .aborted := by
    intro aborted
    obtain ⟨b, argv, sink⟩ := call
    obtain ⟨rfl, directories, args, refused⟩ := Builtin.addAllToPath_of_aborted aborted
    obtain ⟨directory, member, holds⟩ := exists_nul_of_addAllToPath clean refused
    have adds : BuiltinCall.adds ⟨.set, argv, sink⟩ = directories := by
      rw [BuiltinCall.adds, if_pos rfl, args, Builtin.directoriesOf]
    exact holds (free directory (adds ▸ member))
  rcases adds_afterCall sh call with ⟨aborted, -⟩ | adds
  · exact absurd aborted survived
  · exact ⟨survived, adds⟩

theorem pathNulFree_of_adds (clean : sh.machine.env.PathNulFree) {directories : List String}
    (free : ∀ directory ∈ directories, Text.NulFree directory) (adds : sh.Adds directories sh') :
    sh'.machine.env.PathNulFree := by
  intro list bound
  rw [adds.value] at bound
  exact SearchPath.nulFree_grown clean free list bound

/-- Calls add their directories one after the other. -/
theorem adds_afterCalls (clean : sh.machine.env.PathNulFree) {calls : List BuiltinCall}
    (free : ∀ directory ∈ calls.flatMap BuiltinCall.adds, Text.NulFree directory) :
    (∀ before call behind, calls = before ++ call :: behind →
      call.outcome (sh.afterCalls before) ≠ .aborted) ∧
    sh.Adds (calls.flatMap BuiltinCall.adds) (sh.afterCalls calls) := by
  induction calls generalizing sh with
  | nil =>
      refine ⟨fun before call behind split => ?_, (List.append_nil _).symm, rfl⟩
      cases before <;> cases split
  | cons call calls ih =>
      rw [List.flatMap_cons, List.forall_mem_append] at free
      obtain ⟨survived, first⟩ := survives_afterCall clean free.1
      obtain ⟨others, rest⟩ := ih (pathNulFree_of_adds clean free.1 first) free.2
      constructor
      · intro before other behind split
        cases before with
        | nil =>
            obtain ⟨rfl, rfl⟩ := List.cons.inj split
            exact survived
        | cons earlier before =>
            obtain ⟨rfl, split'⟩ := List.cons.inj split
            exact others before other behind split'
      · rw [List.flatMap_cons]
        exact ⟨by rw [← List.append_assoc, ← first.added]; exact rest.added,
          by rw [SearchPath.grown_append, ← first.value]; exact rest.value⟩

end Shell

/-- Unless `PATH` is bytes that are no text, a session adds to it the saved directories and then
those that calls add, in order and with nothing lost, and it knows of just these.  So a session that
starts with the same `PATH` from settings with these directories has the same list, byte for byte.
Lines that the loop reads do not part the two either. -/
theorem search_list_survives_restart (s : Settings) (machine : Machine) (calls : List BuiltinCall)
    (readable : machine.env.PathReadable) (clean : machine.env.PathNulFree)
    (free : ∀ directory ∈ s.paths ++ calls.flatMap BuiltinCall.adds, Text.NulFree directory) :
    ∃ sh, Shell.start s machine = some sh ∧
      (∀ before call behind, calls = before ++ call :: behind →
        call.outcome (sh.afterCalls before) ≠ .aborted) ∧
      listed (sh.afterCalls calls).machine.env =
        listed machine.env ++ named s.paths ++ named (calls.flatMap BuiltinCall.adds) ∧
      (∀ (t : Settings) (machine' : Machine),
        t.paths = (sh.afterCalls calls).session.settings.paths →
        machine'.env.get? Environment.pathName = machine.env.get? Environment.pathName →
        ∃ sh', Shell.start t machine' = some sh' ∧
          sh'.machine.env.get? Environment.pathName =
            (sh.afterCalls calls).machine.env.get? Environment.pathName ∧
          listed sh'.machine.env = listed (sh.afterCalls calls).machine.env) ∧
      ∀ order interactive input ended,
        let last := (ReadLoop.run (Job.launcher order) interactive input (sh, ended)).2.1
        last.Grown (machine.env.get? Environment.pathName) ∧
          listed last.machine.env = listed machine.env ++ named last.session.settings.paths := by
  obtain ⟨freePaths, freeCalls⟩ := List.forall_mem_append.mp free
  obtain ⟨sh, started, settled⟩ := Shell.settled_start freePaths clean
  obtain ⟨held, paths⟩ := Shell.grown_start started
  obtain ⟨survived, adds⟩ := Shell.adds_afterCalls settled.search freeCalls
  have last := adds.grown held
  have known : (sh.afterCalls calls).session.settings.paths =
      s.paths ++ calls.flatMap BuiltinCall.adds := by
    rw [← paths]
    exact adds.added
  refine ⟨sh, started, survived, ?_, ?_, ?_⟩
  · rw [last.listed readable, show (sh.afterCalls calls).session.addedPaths = _ from known, named,
      List.flatMap_append, List.append_assoc]
    rfl
  · intro t machine' same value
    have free' : ∀ directory ∈ t.paths, Text.NulFree directory := by
      rw [same, known]
      exact free
    have clean' : machine'.env.PathNulFree := by
      rw [Environment.PathNulFree, value]
      exact clean
    obtain ⟨sh', started', -⟩ := Shell.settled_start free' clean'
    obtain ⟨held', paths'⟩ := Shell.grown_start started'
    have equal : sh'.machine.env.get? Environment.pathName =
        (sh.afterCalls calls).machine.env.get? Environment.pathName := by
      rw [held', last, paths', same, value]
      rfl
    exact ⟨sh', started', equal, congrArg listedIn equal⟩
  · intro order interactive input ended
    have kept := ReadLoop.keeps_course (P := Shell.Grown (machine.env.get? Environment.pathName))
      Shell.Grown.stays order interactive input (sh, ended)
      (fun _ _ b argv _ held => held.afterCall ⟨b, argv, {}⟩) held
    rw [ReadLoop.run_eq_course]
    exact ⟨kept, kept.listed readable⟩

/-- Calls that name lists of directories, and none. -/
def listingCalls : List BuiltinCall :=
  [{ builtin := .set, argv := ["set", "path", "/x:/y", ""], sink := {} },
    { builtin := .set, argv := ["set", "path"], sink := {} },
    { builtin := .set, argv := ["set", "path", ":/z"], sink := {} }]

def listingSettings : Settings where
  prompt := "$ "
  paths := ["/opt", ""]
  aliases := .empty

theorem search_list_survives_restart_of_lists :
    let machine := (shellWithPath (Text.encode "/usr/bin::/bin")).machine
    machine.env.PathReadable ∧ machine.env.PathNulFree ∧
    (∀ directory ∈ listingSettings.paths ++ listingCalls.flatMap BuiltinCall.adds,
      Text.NulFree directory) ∧
    ∃ sh, Shell.start listingSettings machine = some sh ∧
      listed (sh.afterCalls listingCalls).machine.env =
        ["/usr/bin", "/bin", "/opt", "/x", "/y", "/z"].map Text.encode := by
  intro machine
  have readable : machine.env.PathReadable := pathReadable_shellWithPath (by decide +kernel)
  have clean : machine.env.PathNulFree := pathNulFree_shellWithPath (by decide +kernel)
  have free : ∀ directory ∈ listingSettings.paths ++ listingCalls.flatMap BuiltinCall.adds,
      Text.NulFree directory := by decide
  obtain ⟨sh, started, -, list, -⟩ :=
    search_list_survives_restart listingSettings machine listingCalls readable clean free
  refine ⟨readable, clean, free, sh, started, ?_⟩
  rw [list, listed, get?_shellWithPath]
  decide +kernel

end PipeShell
