import Mathlib.Data.List.Nodup
import PipeShell.Machine

/-!
# Calls that open descriptors

`Adds` says what such a call does to the descriptors of the shell: it takes numbers that were free,
puts open files on them and touches no other number.  It holds of each call that answers with
descriptors, and of calls one after the other.
-/

set_option autoImplicit false

namespace PipeShell.Machine

/-- The second machine has the descriptors of the first and those listed besides. -/
structure Adds (m m' : Machine) (added : List (Nat × Descriptor)) : Prop where
  distinct : (added.map Prod.fst).Nodup
  free : ∀ entry ∈ added, m.table.get? entry.1 = none
  here : ∀ entry ∈ added, m'.table.get? entry.1 = some entry.2
  rest : ∀ number, number ∉ added.map Prod.fst → m'.table.get? number = m.table.get? number

namespace Adds

variable {m m₁ m₂ : Machine} {first second : List (Nat × Descriptor)}

theorem refl (m : Machine) : Adds m m [] where
  distinct := List.nodup_nil
  free := by simp
  here := by simp
  rest := fun _ _ => rfl

/-- A number that is taken again was not taken before. -/
theorem disjoint (a : Adds m m₁ first) (b : Adds m₁ m₂ second) :
    ∀ entry ∈ second, entry.1 ∉ first.map Prod.fst := by
  intro entry member again
  obtain ⟨other, inFirst, same⟩ := List.mem_map.mp again
  have taken := a.here other inFirst
  have free := b.free entry member
  rw [same, free] at taken
  cases taken

theorem trans (a : Adds m m₁ first) (b : Adds m₁ m₂ second) :
    Adds m m₂ (first ++ second) where
  distinct := by
    rw [List.map_append, List.nodup_append]
    refine ⟨a.distinct, b.distinct, ?_⟩
    intro number inFirst other inSecond same
    obtain ⟨entry, member, rfl⟩ := List.mem_map.mp inSecond
    exact a.disjoint b entry member (same ▸ inFirst)
  free := by
    intro entry member
    rcases List.mem_append.mp member with member | member
    · exact a.free entry member
    · rw [← a.rest entry.1 (a.disjoint b entry member)]
      exact b.free entry member
  here := by
    intro entry member
    rcases List.mem_append.mp member with member | member
    · have kept : entry.1 ∉ second.map Prod.fst := by
        intro again
        obtain ⟨other, inSecond, same⟩ := List.mem_map.mp again
        exact a.disjoint b other inSecond (same ▸ List.mem_map_of_mem member)
      rw [b.rest entry.1 kept]
      exact a.here entry member
    · exact b.here entry member
  rest := by
    intro number absent
    rw [List.map_append, List.mem_append, not_or] at absent
    rw [b.rest number absent.2, a.rest number absent.1]

/-- What else a machine has does not matter. -/
theorem congr {m' m₁' : Machine} (a : Adds m m₁ first) (before : m'.table = m.table)
    (after : m₁'.table = m₁.table) : Adds m' m₁' first where
  distinct := a.distinct
  free := by rw [before]; exact a.free
  here := by rw [after]; exact a.here
  rest := by rw [before, after]; exact a.rest

end Adds

/-! ## Single calls -/

theorem allocate_eq_ok_iff {m m' : Machine} {file : OpenFile} {number : Nat} :
    m.allocate file = .ok (number, m') ↔
      m.table.firstFree < m.limit ∧ m.table.firstFree = number ∧
        { m with table := m.table.put number ⟨file, true⟩ } = m' := by
  unfold allocate DescriptorTable.open?
  split
  · next full =>
      split at full
      · cases full
      · next above => simp [above]
  · next taken table found =>
      split at found
      · next below =>
          cases found
          simp only [Except.ok.injEq, Prod.mk.injEq, below, true_and]
          constructor
          · rintro ⟨rfl, rfl⟩
            exact ⟨rfl, rfl⟩
          · rintro ⟨rfl, rfl⟩
            exact ⟨rfl, rfl⟩
      · cases found

theorem adds_of_allocate {m m' : Machine} {file : OpenFile} {number : Nat}
    (opened : m.allocate file = .ok (number, m')) : Adds m m' [(number, ⟨file, true⟩)] := by
  obtain ⟨-, rfl, rfl⟩ := allocate_eq_ok_iff.mp opened
  refine ⟨by simp, by simp [DescriptorTable.get?_firstFree], by simp, ?_⟩
  intro number absent
  have different : number ≠ m.table.firstFree := by simpa using absent
  simp [different]

/-- Looking for a fault uses up the place of the call among the faults, and nothing else. -/
theorem nextFault_snd {m m₀ : Machine} {fault : Option Errno}
    (looked : m.nextFault = (fault, m₀)) : m₀ = { m with faults := m.faults.tail } := by
  unfold nextFault at looked
  split at looked
  · next none_left =>
      cases looked
      rw [none_left, List.tail_nil, ← none_left]
  · next fault rest some_left =>
      cases looked
      rw [some_left, List.tail_cons]

/-- Both ends of a new pipe are new descriptors on one pipe that was not there before. -/
theorem openPipe_spec {m m' : Machine} {reader writer : Nat}
    (opened : m.openPipe = (.ok (reader, writer), m')) :
    Adds m m' [(reader, ⟨.pipe m.pipes.size .reading, true⟩),
        (writer, ⟨.pipe m.pipes.size .writing, true⟩)] ∧
      m'.pipes.size = m.pipes.size + 1 ∧ m'.files = m.files ∧ m'.cwd = m.cwd := by
  unfold openPipe at opened
  split at opened
  · cases opened
  · next m₀ looked =>
      have start := nextFault_snd looked
      dsimp only at opened
      split at opened
      · cases opened
      · next number m₁ first =>
          split at opened
          · cases opened
          · next other m₂ second =>
              cases opened
              have adds := (adds_of_allocate first).trans (adds_of_allocate second)
              obtain ⟨-, -, rfl⟩ := allocate_eq_ok_iff.mp first
              obtain ⟨-, -, rfl⟩ := allocate_eq_ok_iff.mp second
              subst start
              exact ⟨adds.congr rfl rfl, by simp, rfl, rfl⟩

theorem openNode_spec {m m' : Machine} {id number : Nat} {access : Access}
    (opened : m.openNode id access = .ok (number, m')) :
    Adds m m' [(number, ⟨.node id access m.cursors.size, true⟩)] ∧
      m'.pipes = m.pipes ∧ m'.files = m.files ∧ m'.cwd = m.cwd := by
  unfold openNode at opened
  split at opened
  · cases opened
  · next taken m₁ allocated =>
      cases opened
      have adds := adds_of_allocate allocated
      obtain ⟨-, -, rfl⟩ := allocate_eq_ok_iff.mp allocated
      exact ⟨adds.congr rfl rfl, rfl, rfl, rfl⟩

/-- A file opened for input is a new descriptor that reads what the path leads to. -/
theorem openInput_spec {m m' : Machine} {path : String} {number : Nat}
    (opened : m.openInput path = (.ok number, m')) :
    ∃ id, m.files.findReadable m.cwd (Text.encode path) = .ok id ∧
      Adds m m' [(number, ⟨.node id .reading m.cursors.size, true⟩)] ∧
      m'.pipes = m.pipes ∧ m'.files = m.files ∧ m'.cwd = m.cwd := by
  unfold openInput at opened
  split at opened
  · cases opened
  · split at opened
    · cases opened
    · next m₀ looked =>
        have start := nextFault_snd looked
        split at opened
        · cases opened
        · split at opened
          · cases opened
          · next id found =>
              split at opened
              · cases opened
              · next taken m₁ node =>
                  cases opened
                  obtain ⟨adds, pipes, files, cwd⟩ := openNode_spec node
                  subst start
                  exact ⟨id, found, adds.congr rfl rfl, pipes, files, cwd⟩

/-- A file opened for output is a new descriptor that writes what the path leads to, which was
emptied or made. -/
theorem openOutput_spec {m m' : Machine} {path : String} {number : Nat}
    (opened : m.openOutput path = (.ok number, m')) :
    ∃ files id, m.files.recreate m.cwd (Text.encode path) outputMode = .ok (files, id) ∧
      Adds m m' [(number, ⟨.node id .writing m.cursors.size, true⟩)] ∧
      m'.pipes = m.pipes ∧ m'.files = files ∧ m'.cwd = m.cwd := by
  unfold openOutput at opened
  split at opened
  · cases opened
  · split at opened
    · cases opened
    · next m₀ looked =>
        have start := nextFault_snd looked
        split at opened
        · cases opened
        · split at opened
          · cases opened
          · next files id found =>
              split at opened
              · cases opened
              · next taken m₁ node =>
                  cases opened
                  obtain ⟨adds, pipes, -, cwd⟩ := openNode_spec node
                  subst start
                  exact ⟨files, id, found, adds.congr rfl rfl, pipes, rfl, cwd⟩

/-! ## Calls that fail

A call that fails has used up its place among the faults, unless its path is refused before anything
is asked of the system, and leaves all else alone. -/

/-- A pipe that cannot be made leaves no end behind. -/
theorem eq_of_openPipe_error {m m' : Machine} {cause : Errno}
    (failed : m.openPipe = (.error cause, m')) : ∃ faults, m' = { m with faults } := by
  unfold openPipe at failed
  split at failed
  · next fault m₀ looked =>
      cases failed
      exact ⟨_, nextFault_snd looked⟩
  · next m₀ looked =>
      have start := nextFault_snd looked
      dsimp only at failed
      split at failed
      · cases failed
        exact ⟨_, start⟩
      · split at failed
        · cases failed
          exact ⟨_, start⟩
        · cases failed

theorem eq_of_openInput_error {m m' : Machine} {path : String} {cause : FileFailure}
    (failed : m.openInput path = (.error cause, m')) : ∃ faults, m' = { m with faults } := by
  unfold openInput at failed
  split at failed
  · cases failed
    exact ⟨m.faults, rfl⟩
  · split at failed
    · next fault m₀ looked =>
        cases failed
        exact ⟨_, nextFault_snd looked⟩
    · next m₀ looked =>
        have start := nextFault_snd looked
        split at failed
        · cases failed
          exact ⟨_, start⟩
        · split at failed
          · cases failed
            exact ⟨_, start⟩
          · split at failed
            · cases failed
              exact ⟨_, start⟩
            · cases failed

/-- A file that cannot be opened for output is neither made nor emptied. -/
theorem eq_of_openOutput_error {m m' : Machine} {path : String} {cause : FileFailure}
    (failed : m.openOutput path = (.error cause, m')) : ∃ faults, m' = { m with faults } := by
  unfold openOutput at failed
  split at failed
  · cases failed
    exact ⟨m.faults, rfl⟩
  · split at failed
    · next fault m₀ looked =>
        cases failed
        exact ⟨_, nextFault_snd looked⟩
    · next m₀ looked =>
        have start := nextFault_snd looked
        split at failed
        · cases failed
          exact ⟨_, start⟩
        · split at failed
          · cases failed
            exact ⟨_, start⟩
          · split at failed
            · cases failed
              exact ⟨_, start⟩
            · cases failed

end PipeShell.Machine
