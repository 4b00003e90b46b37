import Mathlib.Data.List.Nodup
import PipeShell.Proofs.Machine.Opening

/-!
# Descriptors to spare

A machine hands out the numbers below its limit that are free, the lowest first.  How many of them
are left (`spare`) decides whether a call that asks for descriptors is answered, if nothing else is
in its way: a file takes one of them and a pipe two, and a call for more than there are takes none
and answers that too many files are open.
-/

set_option autoImplicit false

namespace PipeShell

theorem DescriptorTable.firstFree_le {t : DescriptorTable} {number : Nat}
    (free : t.get? number = none) : t.firstFree ≤ number := by
  by_contra below
  have taken : number < t.slots.findIdx Option.isNone := Nat.lt_of_not_le below
  have length : number < t.slots.length := Nat.lt_of_lt_of_le taken List.findIdx_le_length
  have notNone := List.not_of_lt_findIdx taken
  rw [get?, List.getElem?_eq_getElem length, Option.join_some] at free
  rw [free] at notNone
  cases notNone

namespace Machine

variable {m m' : Machine} {file : OpenFile} {number : Nat} {path : String}

/-- The numbers below the limit that stand for nothing. -/
def unused (m : Machine) : List Nat :=
  (List.range m.limit).filter fun number => (m.table.get? number).isNone

/-- How many descriptors the machine has left to hand out. -/
def spare (m : Machine) : Nat := m.unused.length

theorem mem_unused_iff : number ∈ m.unused ↔ number < m.limit ∧ m.table.get? number = none := by
  simp [unused]

theorem nodup_unused (m : Machine) : m.unused.Nodup := List.nodup_range.filter _

theorem spare_pos_iff : 0 < m.spare ↔ m.table.firstFree < m.limit := by
  rw [spare, List.length_pos_iff_exists_mem]
  constructor
  · rintro ⟨number, member⟩
    obtain ⟨below, free⟩ := mem_unused_iff.mp member
    exact Nat.lt_of_le_of_lt (DescriptorTable.firstFree_le free) below
  · intro below
    exact ⟨_, mem_unused_iff.mpr ⟨below, DescriptorTable.get?_firstFree m.table⟩⟩

theorem spare_eq_zero_iff : m.spare = 0 ↔ m.limit ≤ m.table.firstFree := by
  rw [← Nat.not_lt, ← spare_pos_iff, Nat.pos_iff_ne_zero, not_not]

/-! ## One descriptor -/

theorem spare_of_allocate (opened : m.allocate file = .ok (number, m')) :
    m'.spare + 1 = m.spare := by
  obtain ⟨below, rfl, rfl⟩ := allocate_eq_ok_iff.mp opened
  let taken : Machine := { m with table := m.table.put m.table.firstFree ⟨file, true⟩ }
  have gone : m.table.firstFree ∉ taken.unused := by
    rw [mem_unused_iff, DescriptorTable.get?_put, if_pos rfl]
    rintro ⟨-, ⟨⟩⟩
  -- both lists have each number once, so it is enough that they have the same numbers
  have same : (m.table.firstFree :: taken.unused).Perm m.unused := by
    rw [List.perm_ext_iff_of_nodup (List.nodup_cons.mpr ⟨gone, nodup_unused taken⟩)
      (nodup_unused m)]
    intro number
    rw [List.mem_cons, mem_unused_iff, mem_unused_iff, DescriptorTable.get?_put]
    by_cases here : number = m.table.firstFree
    · simp only [here, true_or, true_iff]
      exact ⟨below, DescriptorTable.get?_firstFree m.table⟩
    · simp only [here, false_or, if_false]
      rfl
  exact same.length_eq

/-- The machine has a number to spare and gives the lowest, or it has none. -/
theorem allocate_cases (m : Machine) (file : OpenFile) :
    (m.spare = 0 ∧ m.allocate file = .error .tooManyOpen) ∨
      ∃ number m', m.allocate file = .ok (number, m') ∧ m'.spare + 1 = m.spare ∧
        m'.faults = m.faults := by
  by_cases below : m.table.firstFree < m.limit
  · have opened : m.allocate file = .ok (m.table.firstFree,
        { m with table := m.table.put m.table.firstFree ⟨file, true⟩ }) :=
      allocate_eq_ok_iff.mpr ⟨below, rfl, rfl⟩
    exact Or.inr ⟨_, _, opened, spare_of_allocate opened, rfl⟩
  · refine Or.inl ⟨spare_eq_zero_iff.mpr (Nat.le_of_not_lt below), ?_⟩
    rw [allocate, DescriptorTable.open?, if_neg below]

/-! ## Calls of a machine without faults -/

theorem nextFault_of_faultless (faultless : m.faults = []) : m.nextFault = (none, m) := by
  rw [nextFault, faultless]

/-- A pipe is made just when two numbers are left. -/
theorem openPipe_cases (faultless : m.faults = []) :
    (m.spare < 2 ∧ m.openPipe = (.error .tooManyOpen, m)) ∨
      ∃ pipe m', m.openPipe = (.ok pipe, m') ∧ m'.spare + 2 = m.spare ∧ m'.faults = [] := by
  rw [openPipe, nextFault_of_faultless faultless]
  dsimp only
  rcases m.allocate_cases (.pipe m.pipes.size .reading) with
    ⟨full, refused⟩ | ⟨reader, m₁, opened, one, same⟩
  · rw [refused]
    exact Or.inl ⟨by omega, rfl⟩
  · rw [opened]
    dsimp only
    rcases m₁.allocate_cases (.pipe m.pipes.size .writing) with
      ⟨full, refused⟩ | ⟨writer, m₂, opened', two, same'⟩
    · rw [refused]
      exact Or.inl ⟨by omega, rfl⟩
    · rw [opened']
      have both : m₂.spare + 2 = m.spare := by omega
      exact Or.inr ⟨_, _, rfl, both, (same'.trans same).trans faultless⟩

theorem openNode_cases (m : Machine) (id : Nat) (access : Access) :
    (m.spare = 0 ∧ m.openNode id access = .error .tooManyOpen) ∨
      ∃ number m', m.openNode id access = .ok (number, m') ∧ m'.spare + 1 = m.spare ∧
        m'.faults = m.faults := by
  rw [openNode]
  rcases m.allocate_cases (.node id access m.cursors.size) with
    ⟨full, refused⟩ | ⟨number, m₁, opened, one, same⟩
  · rw [refused]
    exact Or.inl ⟨full, rfl⟩
  · rw [opened]
    exact Or.inr ⟨_, _, rfl, one, same⟩

/-- Nothing but a lack of descriptors keeps the shell from reading a file. -/
structure Readable (m : Machine) (path : String) : Prop where
  wellFormed : pathFault? (Text.encode path) = none
  found : ∃ id, m.files.findReadable m.cwd (Text.encode path) = .ok id

/-- Nothing but a lack of descriptors keeps the shell from making a file or emptying it. -/
structure Writable (m : Machine) (path : String) : Prop where
  wellFormed : pathFault? (Text.encode path) = none
  made : ∃ result, m.files.recreate m.cwd (Text.encode path) outputMode = .ok result

theorem Readable.congr (readable : m.Readable path) (files : m'.files = m.files)
    (cwd : m'.cwd = m.cwd) : m'.Readable path where
  wellFormed := readable.wellFormed
  found := by rw [files, cwd]; exact readable.found

theorem Writable.congr (writable : m.Writable path) (files : m'.files = m.files)
    (cwd : m'.cwd = m.cwd) : m'.Writable path where
  wellFormed := writable.wellFormed
  made := by rw [files, cwd]; exact writable.made

theorem openInput_cases (faultless : m.faults = []) (readable : m.Readable path) :
    (m.spare = 0 ∧ m.openInput path = (.error (.system .tooManyOpen), m)) ∨
      ∃ number m', m.openInput path = (.ok number, m') ∧ m'.spare + 1 = m.spare ∧
        m'.faults = [] := by
  obtain ⟨wellFormed, id, found⟩ := readable
  rw [openInput, wellFormed, nextFault_of_faultless faultless]
  dsimp only
  by_cases full : m.limit ≤ m.table.firstFree
  · rw [if_pos full]
    exact Or.inl ⟨spare_eq_zero_iff.mpr full, rfl⟩
  · rw [if_neg full, found]
    dsimp only
    rcases m.openNode_cases id .reading with ⟨none, -⟩ | ⟨number, m₁, opened, one, same⟩
    · exact absurd (spare_eq_zero_iff.mp none) full
    · rw [opened]
      exact Or.inr ⟨_, _, rfl, one, same.trans faultless⟩

theorem openOutput_cases (faultless : m.faults = []) (writable : m.Writable path) :
    (m.spare = 0 ∧ m.openOutput path = (.error (.system .tooManyOpen), m)) ∨
      ∃ number m', m.openOutput path = (.ok number, m') ∧ m'.spare + 1 = m.spare ∧
        m'.faults = [] := by
  obtain ⟨wellFormed, ⟨files, id⟩, made⟩ := writable
  rw [openOutput, wellFormed, nextFault_of_faultless faultless]
  dsimp only
  by_cases full : m.limit ≤ m.table.firstFree
  · rw [if_pos full]
    exact Or.inl ⟨spare_eq_zero_iff.mpr full, rfl⟩
  · rw [if_neg full, made]
    dsimp only
    rcases m.openNode_cases id .writing with ⟨none, -⟩ | ⟨number, m₁, opened, one, same⟩
    · exact absurd (spare_eq_zero_iff.mp none) full
    · rw [opened]
      exact Or.inr ⟨_, _, rfl, one, same.trans faultless⟩

end Machine

end PipeShell
