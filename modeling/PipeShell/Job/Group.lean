import PipeShell.Error
import PipeShell.Job.Roster

/-!
# The session's process group

Every child of a session joins one group, so that one signal reaches all of
them.  The first child begins the group; when all its members are gone, the
next child begins a new one.  Child and shell both see to the placing, each
before it goes on, so the child is in its place whichever comes first
(`Handshake`).
-/

set_option autoImplicit false

namespace PipeShell

/-- In which order a new child joins the group, the shell adopts the child, and the child turns into
its program. -/
inductive Handshake where
  | joinAdoptExec
  | joinExecAdopt
  | adoptJoinExec
  deriving DecidableEq, Repr

namespace Group

/-- The child's side: joins the session's group, or begins a new one if that is gone. -/
def join (id : Option Nat) (child : Nat) (r : Roster) : Roster :=
  match r.setGroup .itself child (id.getD child) with
  | .ok r => r
  | .error _ =>
    match r.setGroup .itself child child with
    | .ok r => r
    | .error _ => r

/-- The shell's attempt to place the child. -/
def place (id : Option Nat) (child : Nat) (r : Roster) : Roster :=
  match r.setGroup .parent child (id.getD child) with
  | .ok r => r
  | .error cause =>
    if cause = .notPermitted && id.isSome then
      match r.setGroup .parent child child with
      | .ok r => r
      | .error _ => r
    else r

/-- The shell's side: places the child if that is still to be done and takes over the group in which
the child is. -/
def adopt (shellGroup : Nat) (id : Option Nat) (child : Nat) (r : Roster) :
    Option Nat × Roster × List Warning :=
  let r := place id child r
  match r.groupOf? child with
  | some group =>
    if group = shellGroup then (id, r, [.groupShared child]) else (some group, r, [])
  | none => (id, r, [])

/-- Places a new child and lets it turn into its program. -/
def enroll (order : Handshake) (shellGroup : Nat) (id : Option Nat) (child : Nat) (r : Roster) :
    Option Nat × Roster × List Warning :=
  match order with
  | .joinAdoptExec =>
    let (id, r, warnings) := adopt shellGroup id child (join id child r)
    (id, r.exec child, warnings)
  | .joinExecAdopt => adopt shellGroup id child ((join id child r).exec child)
  | .adoptJoinExec =>
    let (adopted, r, warnings) := adopt shellGroup id child r
    (adopted, (join id child r).exec child, warnings)

end Group

end PipeShell
