import PipeShell.Machine.Streams
import PipeShell.Proofs.Machine.Gains

/-!
# Open files by their numbers

Pipes and openings of files are numbered in the order in which a machine makes them, and never
forgotten.  So a file is `Opened` between two moments if the machine did not know it at the first
and knows it at the second.  What a process holds is known (`Consistent`), hence nobody has a
descriptor on a file before it was opened.

Calls that open and close descriptors of the shell make the machine know more, leave its processes
alone and put new descriptors on new files (`Rewired`).
-/

set_option autoImplicit false

namespace PipeShell

theorem DescriptorTable.holds_eq_true_iff {t : DescriptorTable} {file : OpenFile} :
    t.holds file = true ↔ ∃ number d, t.get? number = some d ∧ d.file = file := by
  unfold holds get?
  rw [List.any_eq_true]
  constructor
  · rintro ⟨slot, member, standsFor⟩
    obtain ⟨number, here⟩ := List.getElem?_of_mem member
    obtain ⟨d, rfl, same⟩ := (Option.any_eq_true _ _).mp standsFor
    exact ⟨number, d, by rw [here]; rfl, of_decide_eq_true same⟩
  · rintro ⟨number, d, here, rfl⟩
    have slot := Option.join_eq_some_iff.mp here
    exact ⟨some d, List.mem_of_getElem? slot, by simp⟩

theorem DescriptorTable.holds_of_get? {t : DescriptorTable} {number : Nat} {d : Descriptor}
    (here : t.get? number = some d) : t.holds d.file = true :=
  holds_eq_true_iff.mpr ⟨number, d, here, rfl⟩

namespace Machine

/-! ## What a machine knows -/

/-- The machine has made this pipe, or opened this file. -/
def Knows (m : Machine) : OpenFile → Prop
  | .standard _ => True
  | .pipe id _ => id < m.pipes.size
  | .node _ _ cursor => cursor < m.cursors.size

/-- Processes hold nothing that the machine does not know. -/
def Consistent (m : Machine) : Prop :=
  ∀ file, m.isHeld file = true → m.Knows file

/-- The file was opened between two moments. -/
def Opened (before after : Machine) (file : OpenFile) : Prop :=
  ¬ before.Knows file ∧ after.Knows file

theorem Consistent.of_get? {m : Machine} (consistent : m.Consistent) {number : Nat}
    {d : Descriptor} (here : m.table.get? number = some d) : m.Knows d.file := by
  apply consistent
  rw [isHeld, DescriptorTable.holds_of_get? here, Bool.true_or]

/-- Nobody holds a file before it is opened. -/
theorem Consistent.isHeld_of_opened {m m' : Machine} (consistent : m.Consistent) {file : OpenFile}
    (opened : m.Opened m' file) : m.isHeld file = false := by
  rw [← Bool.not_eq_true]
  exact fun held => opened.1 (consistent file held)

/-! ## Learning -/

/-- What the first machine knows, the second one knows too. -/
structure Grows (m m' : Machine) : Prop where
  pipes : m.pipes.size ≤ m'.pipes.size
  cursors : m.cursors.size ≤ m'.cursors.size

namespace Grows

variable {m m₁ m₂ : Machine}

theorem refl (m : Machine) : Grows m m := ⟨Nat.le_refl _, Nat.le_refl _⟩

theorem trans (first : Grows m m₁) (second : Grows m₁ m₂) : Grows m m₂ :=
  ⟨Nat.le_trans first.pipes second.pipes, Nat.le_trans first.cursors second.cursors⟩

theorem knows (grows : Grows m m₁) {file : OpenFile} (known : m.Knows file) : m₁.Knows file := by
  cases file with
  | standard stream => trivial
  | pipe id side => exact Nat.lt_of_lt_of_le known grows.pipes
  | node id access cursor => exact Nat.lt_of_lt_of_le known grows.cursors

end Grows

/-- The shell is in the same directory, with the same environment. -/
structure StaysPut (m m' : Machine) : Prop where
  cwd : m'.cwd = m.cwd
  env : m'.env = m.env

namespace StaysPut

variable {m m₁ m₂ : Machine}

theorem refl (m : Machine) : StaysPut m m := ⟨rfl, rfl⟩

theorem trans (first : StaysPut m m₁) (second : StaysPut m₁ m₂) : StaysPut m m₂ :=
  ⟨second.cwd.trans first.cwd, second.env.trans first.env⟩

end StaysPut

/-- No process was started, moved or ended. -/
structure KeepsProcesses (m m' : Machine) : Prop where
  running : m'.running = m.running
  roster : m'.roster = m.roster
  nextPid : m'.nextPid = m.nextPid
  shellGroup : m'.shellGroup = m.shellGroup

theorem KeepsProcesses.trans {m m₁ m₂ : Machine} (first : KeepsProcesses m m₁)
    (second : KeepsProcesses m₁ m₂) : KeepsProcesses m m₂ where
  running := second.running.trans first.running
  roster := second.roster.trans first.roster
  nextPid := second.nextPid.trans first.nextPid
  shellGroup := second.shellGroup.trans first.shellGroup

/-- A machine that knows more and has the same processes, where the shell has not moved.  Its new
descriptors are on files that were opened since. -/
structure Rewired (m m' : Machine) : Prop extends Grows m m', StaysPut m m', KeepsProcesses m m'
    where
  fresh : ∀ number d, m'.table.get? number = some d →
    m.table.get? number = some d ∨ m.Opened m' d.file

namespace Rewired

variable {m m₁ m₂ : Machine} {added : List (Nat × Descriptor)}

/-- A call that makes the machine know nothing new can only close descriptors. -/
theorem of_eq (pipes : m₁.pipes = m.pipes) (cursors : m₁.cursors = m.cursors)
    (kept : ∀ number d, m₁.table.get? number = some d → m.table.get? number = some d)
    (put : StaysPut m m₁) (processes : KeepsProcesses m m₁) : Rewired m m₁ where
  toStaysPut := put
  toKeepsProcesses := processes
  pipes := Nat.le_of_eq (congrArg Array.size pipes.symm)
  cursors := Nat.le_of_eq (congrArg Array.size cursors.symm)
  fresh number d here := Or.inl (kept number d here)

theorem of_adds (adds : Adds m m₁ added) (opened : ∀ entry ∈ added, m.Opened m₁ entry.2.file)
    (grows : Grows m m₁) (put : StaysPut m m₁) (processes : KeepsProcesses m m₁) :
    Rewired m m₁ where
  toGrows := grows
  toStaysPut := put
  toKeepsProcesses := processes
  fresh := by
    intro number d here
    by_cases member : number ∈ added.map Prod.fst
    · obtain ⟨entry, listed, rfl⟩ := List.mem_map.mp member
      rw [adds.here entry listed] at here
      cases here
      exact Or.inr (opened entry listed)
    · rw [adds.rest number member] at here
      exact Or.inl here

theorem refl (m : Machine) : Rewired m m :=
  .of_eq rfl rfl (fun _ _ here => here) ⟨rfl, rfl⟩ ⟨rfl, rfl, rfl, rfl⟩

theorem trans (first : Rewired m m₁) (second : Rewired m₁ m₂) : Rewired m m₂ where
  toGrows := first.toGrows.trans second.toGrows
  toStaysPut := first.toStaysPut.trans second.toStaysPut
  toKeepsProcesses := first.toKeepsProcesses.trans second.toKeepsProcesses
  fresh := by
    intro number d here
    rcases second.fresh number d here with before | ⟨unknown, known⟩
    · rcases first.fresh number d before with kept | ⟨unknown, known⟩
      · exact Or.inl kept
      · exact Or.inr ⟨unknown, second.knows known⟩
    · exact Or.inr ⟨fun earlier => unknown (first.knows earlier), known⟩

end Rewired

/-- A process still holds only what the machine knows. -/
theorem Consistent.rewired {m m' : Machine} (consistent : m.Consistent) (rewired : Rewired m m') :
    m'.Consistent := by
  intro file held
  rw [isHeld, rewired.running, Bool.or_eq_true] at held
  rcases held with own | others
  · obtain ⟨number, d, here, rfl⟩ := DescriptorTable.holds_eq_true_iff.mp own
    rcases rewired.fresh number d here with before | opened
    · exact rewired.knows (consistent.of_get? before)
    · exact opened.2
  · apply rewired.knows
    apply consistent
    rw [isHeld, others, Bool.or_true]

/-! ## Calls -/

section Calls

variable {m m' : Machine}

theorem rewired_closeAll (m : Machine) (numbers : List Nat) : Rewired m (m.closeAll numbers) := by
  induction numbers generalizing m with
  | nil => exact .refl m
  | cons number numbers ih =>
      have first : Rewired m (m.close number) := by
        refine .of_eq rfl rfl (fun other d here => ?_) ⟨rfl, rfl⟩ ⟨rfl, rfl, rfl, rfl⟩
        rw [close, DescriptorTable.get?_close] at here
        split at here
        · cases here
        · exact here
      exact first.trans (ih (m.close number))

/-- Closing forgets no file, also after calls that learned of none. -/
theorem grows_closeAll (pipes : m'.pipes = m.pipes) (cursors : m'.cursors = m.cursors)
    (numbers : List Nat) : Grows m (m'.closeAll numbers) := by
  have closed := rewired_closeAll m' numbers
  exact ⟨pipes ▸ closed.pipes, cursors ▸ closed.cursors⟩

theorem rewired_nextFault {fault : Option Errno} (looked : m.nextFault = (fault, m')) :
    Rewired m m' := by
  rw [nextFault_snd looked]
  exact .of_eq rfl rfl (fun _ _ here => here) ⟨rfl, rfl⟩ ⟨rfl, rfl, rfl, rfl⟩

theorem rewired_openNode {id number : Nat} {access : Access}
    (opened : m.openNode id access = .ok (number, m')) : Rewired m m' := by
  have adds := (openNode_spec opened).1
  unfold openNode at opened
  split at opened
  · cases opened
  · next taken m₁ allocated =>
      cases opened
      obtain ⟨-, -, rfl⟩ := allocate_eq_ok_iff.mp allocated
      refine .of_adds adds ?_ ⟨Nat.le_refl _, by simp⟩ ⟨rfl, rfl⟩ ⟨rfl, rfl, rfl, rfl⟩
      simp [Opened, Knows]

theorem rewired_openPipe {result : Except Errno (Nat × Nat)}
    (called : m.openPipe = (result, m')) : Rewired m m' := by
  have whole := called
  unfold openPipe at called
  split at called
  · next looked =>
      cases called
      exact rewired_nextFault looked
  · next m₀ looked =>
      have start := rewired_nextFault looked
      have before := nextFault_snd looked
      dsimp only at called
      split at called
      · cases called
        exact start
      · next reader m₁ first =>
          split at called
          · cases called
            exact start
          · next writer m₂ second =>
              cases called
              have adds := (openPipe_spec whole).1
              obtain ⟨-, -, rfl⟩ := allocate_eq_ok_iff.mp first
              obtain ⟨-, -, rfl⟩ := allocate_eq_ok_iff.mp second
              subst before
              refine .of_adds adds ?_ ⟨by simp, Nat.le_refl _⟩ ⟨rfl, rfl⟩ ⟨rfl, rfl, rfl, rfl⟩
              simp [Opened, Knows]

theorem rewired_openInput {path : String} {result : Except FileFailure Nat}
    (called : m.openInput path = (result, m')) : Rewired m m' := by
  unfold openInput at called
  split at called
  · cases called
    exact .refl m
  · split at called
    · next looked =>
        cases called
        exact rewired_nextFault looked
    · next m₀ looked =>
        have start := rewired_nextFault looked
        split at called
        · cases called
          exact start
        · split at called
          · cases called
            exact start
          · split at called
            · cases called
              exact start
            · next opened =>
                cases called
                exact start.trans (rewired_openNode opened)

theorem rewired_openOutput {path : String} {result : Except FileFailure Nat}
    (called : m.openOutput path = (result, m')) : Rewired m m' := by
  unfold openOutput at called
  split at called
  · cases called
    exact .refl m
  · split at called
    · next looked =>
        cases called
        exact rewired_nextFault looked
    · next m₀ looked =>
        have start := rewired_nextFault looked
        split at called
        · cases called
          exact start
        · split at called
          · cases called
            exact start
          · split at called
            · cases called
              exact start
            · next opened =>
                cases called
                exact (start.trans (rewired_openNode opened)).trans
                  (.of_eq rfl rfl (fun _ _ here => here) ⟨rfl, rfl⟩ ⟨rfl, rfl, rfl, rfl⟩)

end Calls

end Machine

end PipeShell
