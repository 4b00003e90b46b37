/-!
# Descriptor tables

A process reaches its open files through small numbers.  A `DescriptorTable`
says for each number which open file it stands for and whether the entry goes
away when the process turns into another program.  A new entry takes the lowest
free number below the limit; `duplicate` puts an entry on a chosen number and
keeps it across such a change.

A table is known by its view `get?`, and each operation by what it does to it.
-/

set_option autoImplicit false

namespace PipeShell

inductive Access where
  | reading
  | writing
  deriving DecidableEq, Repr

/-- The streams a process is started with. -/
inductive Stream where
  | input
  | output
  | error
  deriving DecidableEq, Repr

/-- What a descriptor can stand for. -/
inductive OpenFile where
  | standard (stream : Stream)
  /-- One end of a pipe. -/
  | pipe (id : Nat) (side : Access)
  /-- A node of the file tree, read or written from the place that `cursor` keeps. -/
  | node (id : Nat) (access : Access) (cursor : Nat)
  deriving DecidableEq, Repr

structure Descriptor where
  file : OpenFile
  closeOnExec : Bool
  deriving DecidableEq, Repr

structure DescriptorTable where
  slots : List (Option Descriptor)
  deriving DecidableEq, Repr

namespace DescriptorTable

/-! ## Operations -/

/-- The three standard streams. -/
def standard : DescriptorTable :=
  ⟨[.input, .output, .error].map fun stream => some ⟨.standard stream, false⟩⟩

def get? (t : DescriptorTable) (number : Nat) : Option Descriptor :=
  t.slots[number]?.join

def firstFree (t : DescriptorTable) : Nat :=
  t.slots.findIdx Option.isNone

/-- The slots with `slot` at the given place, made longer where that is needed. -/
def setSlot (slot : Option Descriptor) : Nat → List (Option Descriptor) → List (Option Descriptor)
  | 0, [] => [slot]
  | 0, _ :: rest => slot :: rest
  | n + 1, [] => none :: setSlot slot n []
  | n + 1, first :: rest => first :: setSlot slot n rest

def put (t : DescriptorTable) (number : Nat) (d : Descriptor) : DescriptorTable :=
  ⟨setSlot (some d) number t.slots⟩

def close (t : DescriptorTable) (number : Nat) : DescriptorTable :=
  ⟨setSlot none number t.slots⟩

/-- The lowest free number below `limit` and the table that has the entry there. -/
def open? (t : DescriptorTable) (limit : Nat) (d : Descriptor) : Option (Nat × DescriptorTable) :=
  if t.firstFree < limit then some (t.firstFree, t.put t.firstFree d) else none

/-- Puts the open file of one number on another as well, where it outlives a change of program. -/
def duplicate (t : DescriptorTable) (source target : Nat) : Option DescriptorTable :=
  (t.get? source).map fun d => t.put target { d with closeOnExec := false }

/-- The table as the program sees it that the process turns into. -/
def afterExec (t : DescriptorTable) : DescriptorTable :=
  ⟨t.slots.map fun slot => slot.filter fun d => !d.closeOnExec⟩

/-- How many numbers are in use. -/
def count (t : DescriptorTable) : Nat :=
  t.slots.countP Option.isSome

/-- Some number stands for this open file. -/
def holds (t : DescriptorTable) (file : OpenFile) : Bool :=
  t.slots.any fun slot => slot.any fun d => d.file = file

/-! ## The view -/

theorem getElem?_setSlot (slot : Option Descriptor) (number other : Nat)
    (slots : List (Option Descriptor)) :
    (setSlot slot number slots)[other]?.join =
      if other = number then slot else slots[other]?.join := by
  induction number generalizing slots other with
  | zero =>
    cases slots <;> cases other <;> simp [setSlot]
  | succ n ih =>
    cases slots with
    | nil =>
      cases other with
      | zero => simp [setSlot]
      | succ other => simpa [setSlot] using ih other []
    | cons first rest =>
      cases other with
      | zero => simp [setSlot]
      | succ other => simpa [setSlot] using ih other rest

@[simp]
theorem get?_put (t : DescriptorTable) (number other : Nat) (d : Descriptor) :
    (t.put number d).get? other = if other = number then some d else t.get? other :=
  getElem?_setSlot (some d) number other t.slots

@[simp]
theorem get?_close (t : DescriptorTable) (number other : Nat) :
    (t.close number).get? other = if other = number then none else t.get? other :=
  getElem?_setSlot none number other t.slots

/-- The number that a new entry takes was free. -/
theorem get?_firstFree (t : DescriptorTable) : t.get? t.firstFree = none := by
  unfold get? firstFree
  cases h : t.slots[t.slots.findIdx Option.isNone]? with
  | none => rfl
  | some slot =>
    obtain ⟨hlt, rfl⟩ := List.getElem?_eq_some_iff.1 h
    have := List.findIdx_getElem (p := Option.isNone) (w := hlt)
    simpa using this

end DescriptorTable

end PipeShell
