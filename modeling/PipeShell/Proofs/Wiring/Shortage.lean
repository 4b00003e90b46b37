import Mathlib
import PipeShell.Proofs.Machine.Spare
import PipeShell.Proofs.Wiring.OutputLast
import PipeShell.Proofs.Wiring.Ownership

/-!
# How many descriptors a pipeline takes

Wiring takes two descriptors for each pipe and one for each file (`need`).  On a machine that is
`Willing` to answer all calls of the pipeline but for lack of descriptors, what it has to spare
before a call is what it has after it and what the call took.  So the number to spare tells how far
wiring comes: it succeeds just when all that is needed can be spared, and otherwise its error says
at which call the descriptors ran out (`wire_takes_what_it_needs`).
-/

set_option autoImplicit false

namespace PipeShell.Wiring

variable {m m' : Machine} {p : Pipeline} {ctx : Context} {pipes : List (Nat × Nat)}
  {file : Option String} {e : Endpoint}

/-- The descriptors that a pipeline takes. -/
def need (p : Pipeline) : Nat :=
  2 * (p.size - 1) + p.inputFile.toList.length + p.outputFile.toList.length

/-- Nothing but a lack of descriptors keeps the machine from answering the calls of a pipeline. -/
structure Willing (p : Pipeline) (m : Machine) : Prop where
  faultless : m.faults = []
  readable : ∀ path, p.inputFile = some path → m.Readable path
  writable : ∀ path, p.outputFile = some path → m.Writable path

/-! ## What calls take -/

namespace Willing

theorem of_same (willing : Willing p m) (faultless : m'.faults = []) (files : m'.files = m.files)
    (cwd : m'.cwd = m.cwd) : Willing p m' where
  faultless := faultless
  readable path named := (willing.readable path named).congr files cwd
  writable path named := (willing.writable path named).congr files cwd

theorem openPipe_eq_ok {pipe : Nat × Nat} (willing : Willing p m)
    (opened : m.openPipe = (.ok pipe, m')) : Willing p m' ∧ m'.spare + 2 = m.spare := by
  rcases Machine.openPipe_cases willing.faultless with ⟨-, refused⟩ | ⟨_, _, also, two, faults⟩
  · rw [opened] at refused
    cases refused
  · rw [opened] at also
    cases also
    obtain ⟨-, -, files, cwd⟩ := Machine.openPipe_spec opened
    exact ⟨willing.of_same faults files cwd, two⟩

theorem openPipe_eq_error {cause : Errno} (willing : Willing p m)
    (refused : m.openPipe = (.error cause, m')) : cause = .tooManyOpen ∧ m.spare < 2 := by
  rcases Machine.openPipe_cases willing.faultless with ⟨left, also⟩ | ⟨_, _, opened, -⟩
  · rw [refused] at also
    cases also
    exact ⟨rfl, left⟩
  · rw [refused] at opened
    cases opened

theorem makesPipes (willing : Willing p m) (makes : MakesPipes m pipes m') :
    Willing p m' ∧ m'.spare + 2 * pipes.length = m.spare := by
  induction makes with
  | none => exact ⟨willing, rfl⟩
  | next opened _ ih =>
      obtain ⟨willing₁, two⟩ := willing.openPipe_eq_ok opened
      obtain ⟨willing₂, rest⟩ := ih willing₁
      refine ⟨willing₂, ?_⟩
      rw [List.length_cons]
      omega

theorem opensInput (willing : Willing p m) (opens : OpensInput p.inputFile m e m') :
    Willing p m' ∧ m'.spare + p.inputFile.toList.length = m.spare := by
  obtain ⟨_, -, -, files, cwd, -⟩ := opensInput_spec opens
  generalize named : p.inputFile = file at opens ⊢
  cases opens with
  | own => exact ⟨willing, rfl⟩
  | file opened =>
      rcases Machine.openInput_cases willing.faultless (willing.readable _ named) with
        ⟨-, refused⟩ | ⟨_, _, also, one, faults⟩
      · rw [opened] at refused
        cases refused
      · rw [opened] at also
        cases also
        exact ⟨willing.of_same faults files cwd, one⟩

theorem openInput_eq_error {path : String} {cause : FileFailure} (willing : Willing p m)
    (named : p.inputFile = some path) (refused : m.openInput path = (.error cause, m')) :
    cause = .system .tooManyOpen ∧ m.spare = 0 := by
  rcases Machine.openInput_cases willing.faultless (willing.readable path named) with
    ⟨left, also⟩ | ⟨_, _, opened, -⟩
  · rw [refused] at also
    cases also
    exact ⟨rfl, left⟩
  · rw [refused] at opened
    cases opened

theorem opensOutput (willing : Willing p m) (opens : OpensOutput p.outputFile m e m') :
    m'.spare + p.outputFile.toList.length = m.spare := by
  generalize named : p.outputFile = file at opens ⊢
  cases opens with
  | own => rfl
  | file opened =>
      rcases Machine.openOutput_cases willing.faultless (willing.writable _ named) with
        ⟨-, refused⟩ | ⟨_, _, also, one, -⟩
      · rw [opened] at refused
        cases refused
      · rw [opened] at also
        cases also
        exact one

theorem openOutput_eq_error {path : String} {cause : FileFailure} (willing : Willing p m)
    (named : p.outputFile = some path) (refused : m.openOutput path = (.error cause, m')) :
    cause = .system .tooManyOpen ∧ m.spare = 0 := by
  rcases Machine.openOutput_cases willing.faultless (willing.writable path named) with
    ⟨left, also⟩ | ⟨_, _, opened, -⟩
  · rw [refused] at also
    cases also
    exact ⟨rfl, left⟩
  · rw [refused] at opened
    cases opened

end Willing

/-! ## What connections own -/

theorem length_owned_of_opensInput (opens : OpensInput file m e m') :
    e.owned.length = file.toList.length := by
  cases opens <;> rfl

theorem length_owned_of_opensOutput (opens : OpensOutput file m e m') :
    e.owned.length = file.toList.length := by
  cases opens <;> rfl

theorem length_owned_chain (input : Endpoint) (pipes : List (Nat × Nat)) (output : Endpoint) :
    (owned (chain input pipes output)).length =
      input.owned.length + 2 * pipes.length + output.owned.length := by
  induction pipes generalizing input with
  | nil => simp [chain, owned, Connection.owned]
  | cons pipe pipes ih =>
      rw [chain, owned_cons, List.length_append, ih, Connection.owned, List.length_append,
        List.length_cons]
      simp only [Endpoint.owned, List.length_singleton]
      omega

/-! ## How far wiring comes -/

/-- How wiring comes out where nothing but descriptors can be lacking. -/
inductive Supply (p : Pipeline) (m : Machine) :
    Except ResourceError (List Connection) × Machine → Prop where
  | whole {connections : List Connection} {m' : Machine} (enough : need p ≤ m.spare)
      (taken : (owned connections).length = need p) : Supply p m (.ok connections, m')
  | unpiped {m' : Machine} (left : m.spare < 2 * (p.size - 1)) :
      Supply p m (.error (.pipe .tooManyOpen), m')
  | unread {m' : Machine} {path : String} (named : p.inputFile = some path)
      (left : m.spare = 2 * (p.size - 1)) :
      Supply p m (.error (.openInput path (.system .tooManyOpen)), m')
  | unwritten {m' : Machine} {path : String} (named : p.outputFile = some path)
      (left : m.spare = 2 * (p.size - 1) + p.inputFile.toList.length) :
      Supply p m (.error (.openOutput path (.system .tooManyOpen)), m')

theorem supply_wire (coherent : p.Coherent ctx) (willing : Willing p m) :
    Supply p m (wire p m) := by
  have course := course_wire coherent m
  generalize wire p m = outcome at course ⊢
  cases course with
  | connected opens =>
      obtain ⟨count, m₁, m₂, makes, inputOpens, outputOpens⟩ := opens
      obtain ⟨willing₁, piped⟩ := willing.makesPipes makes
      obtain ⟨willing₂, read⟩ := willing₁.opensInput inputOpens
      have written := willing₂.opensOutput outputOpens
      rw [Pipeline.pipeCount] at count
      refine .whole ?_ ?_
      · rw [need]
        omega
      · rw [length_owned_chain, length_owned_of_opensInput inputOpens,
          length_owned_of_opensOutput outputOpens, need, count]
        omega
  | unpiped makes fewer refused numbers =>
      obtain ⟨willing₁, piped⟩ := willing.makesPipes makes
      obtain ⟨rfl, left⟩ := willing₁.openPipe_eq_error refused
      rw [Pipeline.pipeCount] at fewer
      refine .unpiped ?_
      omega
  | unread makes count named refused numbers =>
      obtain ⟨willing₁, piped⟩ := willing.makesPipes makes
      obtain ⟨rfl, left⟩ := willing₁.openInput_eq_error named refused
      rw [Pipeline.pipeCount] at count
      refine .unread named ?_
      omega
  | unwritten makes count inputOpens named refused numbers =>
      obtain ⟨willing₁, piped⟩ := willing.makesPipes makes
      obtain ⟨willing₂, read⟩ := willing₁.opensInput inputOpens
      obtain ⟨rfl, left⟩ := willing₂.openOutput_eq_error named refused
      rw [Pipeline.pipeCount] at count
      refine .unwritten named ?_
      omega

namespace Supply

variable {outcome : Except ResourceError (List Connection) × Machine} {path : String}

theorem length_of_named (named : file = some path) : file.toList.length = 1 := by
  rw [named]
  rfl

theorem ok_iff (supply : Supply p m outcome) :
    (∃ connections m', outcome = (.ok connections, m')) ↔ need p ≤ m.spare := by
  constructor
  · rintro ⟨connections, m', rfl⟩
    cases supply with
    | whole enough => exact enough
  · intro enough
    rw [need] at enough
    cases supply with
    | whole => exact ⟨_, _, rfl⟩
    | unpiped left => omega
    | unread named left =>
        have := length_of_named named
        omega
    | unwritten named left =>
        have := length_of_named named
        omega

theorem at_pipe (supply : Supply p m outcome) (short : m.spare < 2 * (p.size - 1)) :
    outcome.1 = .error (.pipe .tooManyOpen) := by
  cases supply with
  | whole enough =>
      rw [need] at enough
      omega
  | unpiped => rfl
  | unread _ left => omega
  | unwritten _ left => omega

theorem at_input (supply : Supply p m outcome) (reads : p.inputFile = some path)
    (short : m.spare = 2 * (p.size - 1)) :
    outcome.1 = .error (.openInput path (.system .tooManyOpen)) := by
  have one := length_of_named reads
  cases supply with
  | whole enough =>
      rw [need] at enough
      omega
  | unpiped left => omega
  | unread named =>
      cases reads.symm.trans named
      rfl
  | unwritten _ left => omega

theorem at_output (supply : Supply p m outcome) (piped : 2 * (p.size - 1) ≤ m.spare)
    (short : m.spare < need p)
    (read : ¬ (p.inputFile.isSome = true ∧ m.spare = 2 * (p.size - 1))) :
    ∃ path, p.outputFile = some path ∧
      outcome.1 = .error (.openOutput path (.system .tooManyOpen)) := by
  cases supply with
  | whole enough => omega
  | unpiped left => omega
  | unread named left => exact absurd ⟨by rw [named]; rfl, left⟩ read
  | unwritten named => exact ⟨_, named, rfl⟩

end Supply

/-- On a machine that is short of nothing but descriptors, a pipeline that a line compiles to is
wired just when two of them can be spared for each pipe and one for each file, and then there are
that many more.  Otherwise wiring fails at the first call for which there are too few: a pipe, else
the input file, else the output file.  After a failure no descriptor is left open. -/
theorem wire_takes_what_it_needs (ctx : Context) (line : String) (p : Pipeline)
    (compiled : compile ctx line = .ok p) (m : Machine) (willing : Willing p m) :
    ((∃ connections m', wire p m = (.ok connections, m')) ↔ need p ≤ m.spare) ∧
    (∀ connections m', wire p m = (.ok connections, m') →
      ∃ numbers : List Nat, numbers.Nodup ∧ numbers.length = need p ∧
        (∀ number, number ∈ numbers ↔
          m.table.get? number = none ∧ m'.table.get? number ≠ none) ∧
        ∀ number, number ∉ numbers → m'.table.get? number = m.table.get? number) ∧
    (m.spare < 2 * (p.size - 1) → (wire p m).1 = .error (.pipe .tooManyOpen)) ∧
    (∀ path, p.inputFile = some path → m.spare = 2 * (p.size - 1) →
      (wire p m).1 = .error (.openInput path (.system .tooManyOpen))) ∧
    (2 * (p.size - 1) ≤ m.spare → m.spare < need p →
      ¬ (p.inputFile.isSome = true ∧ m.spare = 2 * (p.size - 1)) →
      ∃ path, p.outputFile = some path ∧
        (wire p m).1 = .error (.openOutput path (.system .tooManyOpen))) ∧
    ∀ cause m', wire p m = (.error cause, m') →
      ∀ number, m'.table.get? number = m.table.get? number := by
  have supply := supply_wire (coherent_of_compile compiled) willing
  refine ⟨supply.ok_iff, ?_, supply.at_pipe, fun _ => supply.at_input, supply.at_output, ?_⟩
  · intro connections m' wired
    have gains := gains_of_wire wired
    rw [wired] at supply
    cases supply with
    | whole enough taken =>
        exact ⟨_, gains.distinct, taken, fun _ => gains.mem_iff, gains.rest⟩
  · intro cause m' failed
    have settled := settled_wire p m
    rw [failed] at settled
    exact fun number => Machine.Gains.rest settled number List.not_mem_nil

/-- A machine with one file, and with three descriptors to spare. -/
def tightMachine : Machine :=
  { bareMachine with
    files := ⟨#[.directory FileSystem.root [(Text.encode "data", 1)] false, .file 0o644 .empty]⟩
    limit := 6 }

theorem willing_tightMachine : Willing sortData tightMachine where
  faultless := rfl
  readable := by
    rintro path ⟨⟩
    exact ⟨by decide, 1, by cbv⟩
  writable := by
    rintro path ⟨⟩
    exact ⟨by decide, _, by cbv⟩

/-- The pipe and the input file take what there is, and the output file is not opened. -/
theorem wire_runs_out_at_output :
    compile bareContext "sort | uniq < data > out" = .ok sortData ∧
      Willing sortData tightMachine ∧ need sortData = 4 ∧ tightMachine.spare = 3 ∧
      (wire sortData tightMachine).1 = .error (.openOutput "out" (.system .tooManyOpen)) := by
  have compiled : compile bareContext "sort | uniq < data > out" = .ok sortData := by decide
  have spare : tightMachine.spare = 3 := by decide
  obtain ⟨-, -, -, -, unwritten, -⟩ :=
    wire_takes_what_it_needs bareContext _ sortData compiled tightMachine willing_tightMachine
  obtain ⟨path, ⟨⟩, failed⟩ := unwritten (by rw [spare]; decide) (by rw [spare]; decide)
    (by rw [spare]; decide)
  exact ⟨compiled, willing_tightMachine, rfl, spare, failed⟩

end PipeShell.Wiring
