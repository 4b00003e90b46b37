import PipeShell.Errno

/-!
# Processes and their groups

The kernel keeps every process on its roster until it is waited for.  Each
belongs to a group, named by the process that began it.  `Roster.setGroup` is
the call that moves a process: into a group of its own, or into one that has a
member.  A parent may move a child only until the child has turned into another
program.
-/

set_option autoImplicit false

namespace PipeShell

structure Member where
  pid : Nat
  group : Nat
  /-- It has turned into another program. -/
  execed : Bool
  deriving DecidableEq, Repr

structure Roster where
  members : List Member
  deriving DecidableEq, Repr

/-- Who asks for a process to be moved. -/
inductive Mover where
  | itself
  | parent
  deriving DecidableEq, Repr

namespace Roster

def member? (r : Roster) (pid : Nat) : Option Member :=
  r.members.find? fun member => member.pid = pid

def groupOf? (r : Roster) (pid : Nat) : Option Nat :=
  (r.member? pid).map Member.group

/-- Some process on the roster is in the group. -/
def hasGroup (r : Roster) (group : Nat) : Bool :=
  r.members.any fun member => member.group = group

def update (r : Roster) (pid : Nat) (change : Member → Member) : Roster :=
  ⟨r.members.map fun member => if member.pid = pid then change member else member⟩

def noProcess : Errno := ⟨3⟩

/-- Moves a process into a group. -/
def setGroup (r : Roster) (mover : Mover) (pid group : Nat) : Except Errno Roster :=
  match r.member? pid with
  | none => .error noProcess
  | some member =>
    if mover = .parent && member.execed then .error .accessDenied
    else if group ≠ pid && !r.hasGroup group then .error .notPermitted
    else .ok (r.update pid fun member => { member with group })

/-- A child starts in the group of its parent. -/
def fork (r : Roster) (pid group : Nat) : Roster :=
  ⟨r.members ++ [{ pid, group, execed := false }]⟩

def exec (r : Roster) (pid : Nat) : Roster :=
  r.update pid fun member => { member with execed := true }

/-- A process that was waited for is gone. -/
def reap (r : Roster) (pid : Nat) : Roster :=
  ⟨r.members.filter fun member => member.pid ≠ pid⟩

/-- The processes of a group. -/
def pidsOf (r : Roster) (group : Nat) : List Nat :=
  (r.members.filter fun member => member.group = group).map Member.pid

end Roster

end PipeShell
