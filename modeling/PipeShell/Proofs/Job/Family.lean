import Mathlib.Logic.Function.Basic
import PipeShell.Proofs.Job.Placing

/-!
# The processes of a session

A `Family` is what the shell and the kernel know of the processes of a session.  It goes on by one
call at a time (`Family.act`): of the shell, which forks a child, places it, waits and at last ends
the session's group; of a child, which joins the group and turns into its program; and of processes
that are none of its children, which are born, move and go as they like.  Calls that are not due
change nothing, so any list of events is a run.

Of one child two things matter: that it is on its way to the session's group until it is launched
(`Arriving`), and that it is in the group from then on, where the calls that it has still to make
keep it (`Stands`).
-/

set_option autoImplicit false

namespace PipeShell

open PipeShell.Group (Joining Placing joinNext placeNext look)
open Roster (Gone Touches)

namespace Family

/-- A child of the shell that was not waited for. -/
structure Child where
  /-- The session's group when the child was forked. -/
  aim : Option Nat
  joining : Joining
  /-- It makes no more calls. -/
  ended : Bool
  /-- The end of the session's group has reached it. -/
  signalled : Bool

inductive Event where
  /-- The shell forks a child. -/
  | fork
  /-- The shell's next call in placing the child that it has forked. -/
  | place
  /-- The next call of a child in joining the group. -/
  | join (pid : Nat)
  /-- A child that is in its place turns into its program. -/
  | exec (pid : Nat)
  | exit (pid : Nat)
  /-- The shell waits for a child that has ended, or somebody else for another process. -/
  | reap (pid : Nat)
  /-- The shell ends the session's group. -/
  | terminate
  /-- A process starts another one, which is no child of the shell. -/
  | bear (parent : Nat)
  /-- A process that is no child of the shell goes to another group. -/
  | move (pid group : Nat)

end Family

structure Family where
  roster : Roster
  /-- The number of the next process. -/
  next : Nat
  /-- The session's group. -/
  group : Option Nat
  children : Nat → Option Family.Child
  /-- The child that is not launched yet, and what the shell has still to do for it. -/
  newcomer : Option (Nat × Placing)

namespace Family

/-- Before the first child. -/
def start (roster : Roster) (next : Nat) : Family :=
  { roster, next, group := none, children := fun _ => none, newcomer := none }

/-- The shell places a child. -/
def place (shellGroup : Nat) (f : Family) (pid : Nat) : Placing → Family
  | .looking => { f with group := look shellGroup f.group pid f.roster, newcomer := none }
  | todo =>
    { f with
      roster := (placeNext f.group pid f.roster todo).2
      newcomer := some (pid, (placeNext f.group pid f.roster todo).1) }

/-- A child joins the group. -/
def join (f : Family) (pid : Nat) (c : Child) : Family :=
  { f with
    roster := (joinNext c.aim pid f.roster c.joining).2
    children := Function.update f.children pid
      (some { c with joining := (joinNext c.aim pid f.roster c.joining).1 }) }

/-- A child of the session when a group is ended. -/
def signal (f : Family) (group pid : Nat) (c : Child) : Child :=
  { c with signalled := c.signalled || (f.roster.pidsOf group).contains pid }

def act (shellGroup : Nat) (f : Family) : Event → Family
  | .fork =>
    match f.newcomer with
    | some _ => f
    | none =>
      { f with
        roster := f.roster.fork f.next shellGroup
        next := f.next + 1
        children := Function.update f.children f.next
          (some { aim := f.group, joining := .asking, ended := false, signalled := false })
        newcomer := some (f.next, .asking) }
  | .place =>
    match f.newcomer with
    | some (pid, todo) => f.place shellGroup pid todo
    | none => f
  | .join pid =>
    match f.children pid with
    | some c => if c.ended then f else f.join pid c
    | none => f
  | .exec pid =>
    match f.children pid with
    | some c =>
      if c.ended = false ∧ c.joining = .placed then { f with roster := f.roster.exec pid } else f
    | none => f
  | .exit pid =>
    match f.children pid with
    | some c => { f with children := Function.update f.children pid (some { c with ended := true }) }
    | none => f
  | .reap pid =>
    match f.children pid with
    | some c =>
      if c.ended = true ∧ f.newcomer = none then
        { f with
          roster := f.roster.reap pid
          children := Function.update f.children pid none }
      else f
    | none => { f with roster := f.roster.reap pid }
  | .terminate =>
    match f.newcomer, f.group with
    | none, some group =>
      { f with group := none, children := fun pid => (f.children pid).map (f.signal group pid) }
    | _, _ => f
  | .bear parent =>
    { f with
      roster := f.roster.fork f.next ((f.roster.groupOf? parent).getD shellGroup)
      next := f.next + 1 }
  | .move pid group =>
    match f.children pid with
    | some _ => f
    | none =>
      match f.roster.setGroup .itself pid group with
      | .ok roster => { f with roster }
      | .error _ => f

def run (shellGroup : Nat) (f : Family) (events : List Event) : Family :=
  events.foldl (act shellGroup) f

/-! ## What holds of a child -/

section Children

variable {shellGroup next next' pid actor group : Nat} {r r' : Roster} {id : Option Nat} {c : Child}
  {todo : Placing}

/-- The group is the one to which the child is to come: that of the session or, if there is none or
it is gone, its own. -/
def Meant (shellGroup next : Nat) (r : Roster) (id : Option Nat) (pid group : Nat) : Prop :=
  group = id.getD pid ∨ group = pid ∧ ∃ old, id = some old ∧ Gone shellGroup next r old

theorem Meant.touched (meant : Meant shellGroup next r id pid group)
    (touches : Touches shellGroup next actor r r') (later : next ≤ next') :
    Meant shellGroup next' r' id pid group := by
  rcases meant with there | ⟨own, old, known, gone⟩
  · exact .inl there
  · exact .inr ⟨own, old, known, gone.touched touches later⟩

/-- Whoever was in the session's group is in the group to which the child is to come. -/
theorem Meant.eq_or_gone (meant : Meant shellGroup next r id pid group) {old : Nat}
    (known : id = some old) : old = group ∨ Gone shellGroup next r old := by
  rcases meant with there | ⟨-, old', known', gone⟩
  · rw [known, Option.getD_some] at there
    exact .inl there.symm
  · obtain rfl := Option.some.inj (known.symm.trans known')
    exact .inr gone

/-- The child is in a group, not that of the shell, and its calls will not take it away. -/
structure Stands (shellGroup next : Nat) (r : Roster) (pid : Nat) (c : Child) (group : Nat) :
    Prop where
  here : r.groupOf? pid = some group
  apart : group ≠ shellGroup
  asking : c.joining = .asking → Meant shellGroup next r c.aim pid group
  leading : c.joining = .leading → group = pid

theorem Stands.touched (stands : Stands shellGroup next r pid c group)
    (touches : Touches shellGroup next actor r r') (later : next ≤ next')
    (same : r'.groupOf? pid = r.groupOf? pid) : Stands shellGroup next' r' pid c group where
  here := by rw [same, stands.here]
  apart := stands.apart
  asking asks := (stands.asking asks).touched touches later
  leading := stands.leading

theorem Stands.exec (stands : Stands shellGroup next r pid c group) :
    Stands shellGroup next (r.exec pid) pid c group :=
  stands.touched .exec (Nat.le_refl next) Roster.groupOf?_exec

/-- Whatever a child in its group asks for, it stays there. -/
theorem Stands.join (stands : Stands shellGroup next r pid c group) :
    Stands shellGroup next (joinNext c.aim pid r c.joining).2 pid
      { c with joining := (joinNext c.aim pid r c.joining).1 } group := by
  obtain ⟨member, found, -⟩ := Roster.groupOf?_eq_some_iff.mp stands.here
  rcases Group.joinNext_cases c.aim found c.joining with
    ⟨target, r', due, moved, result⟩ | ⟨old, asks, aim, -, empty, result⟩ | ⟨-, result⟩
  · have there : target = group := by
      rcases due with ⟨asks, rfl⟩ | ⟨leads, rfl⟩
      · rcases stands.asking asks with same | ⟨-, old, aim, gone⟩
        · exact same.symm
        · -- a group that is gone admits nobody
          obtain ⟨-, -, -, allowed, -⟩ := Roster.setGroup_eq_ok_iff.mp moved
          rw [aim, Option.getD_some] at allowed
          rcases allowed with rfl | had
          · rw [gone.leader] at found
            cases found
          · rw [gone.empty] at had
            cases had
      · exact (stands.leading leads).symm
    rw [result]
    refine ⟨?_, stands.apart, ?_, ?_⟩
    · rw [Roster.groupOf?_of_setGroup moved, there]
    · rintro ⟨⟩
    · rintro ⟨⟩
  · rw [result]
    refine ⟨stands.here, stands.apart, by rintro ⟨⟩, fun _ => ?_⟩
    rcases stands.asking asks with same | ⟨own, -⟩
    · rw [aim, Option.getD_some] at same
      have had := Roster.hasGroup_of_groupOf? stands.here
      rw [same, empty] at had
      cases had
    · exact own
  · rw [result]
    exact ⟨stands.here, stands.apart, by rintro ⟨⟩, by rintro ⟨⟩⟩

/-- The shell has not launched the child yet. -/
structure Arriving (shellGroup next : Nat) (r : Roster) (id : Option Nat) (pid : Nat) (c : Child)
    (todo : Placing) : Prop where
  aim : c.aim = id
  unsignalled : c.signalled = false
  apart : pid ≠ shellGroup
  other : ∀ old, id = some old → old ≠ pid
  early : ∀ member, r.member? pid = some member → member.execed = true → c.joining = .placed
  gone : c.joining = .leading ∨ todo = .leading →
    ∃ old, id = some old ∧ Gone shellGroup next r old
  spot : todo ≠ .looking ∧ c.joining ≠ .placed ∧ r.groupOf? pid = some shellGroup ∨
    ∃ group, r.groupOf? pid = some group ∧ Meant shellGroup next r id pid group

namespace Arriving

variable (arriving : Arriving shellGroup next r id pid c todo)

include arriving

theorem exists_member : ∃ member, r.member? pid = some member := by
  rcases arriving.spot with ⟨-, -, here⟩ | ⟨group, here, -⟩
  · obtain ⟨member, found, -⟩ := Roster.groupOf?_eq_some_iff.mp here
    exact ⟨member, found⟩
  · obtain ⟨member, found, -⟩ := Roster.groupOf?_eq_some_iff.mp here
    exact ⟨member, found⟩

theorem touched (touches : Touches shellGroup next actor r r') (later : next ≤ next')
    (same : r'.member? pid = r.member? pid) : Arriving shellGroup next' r' id pid c todo where
  aim := arriving.aim
  unsignalled := arriving.unsignalled
  apart := arriving.apart
  other := arriving.other
  early member found := arriving.early member (same ▸ found)
  gone due := by
    obtain ⟨old, known, gone⟩ := arriving.gone due
    exact ⟨old, known, gone.touched touches later⟩
  spot := by
    have here : r'.groupOf? pid = r.groupOf? pid := by rw [Roster.groupOf?, same]; rfl
    rw [here]
    rcases arriving.spot with waits | ⟨group, here, meant⟩
    · exact .inl waits
    · exact .inr ⟨group, here, meant.touched touches later⟩

theorem join (vanished : ∀ old, id = some old → r.hasGroup old = false →
      Gone shellGroup next r old) :
    Arriving shellGroup next (joinNext c.aim pid r c.joining).2 id pid
      { c with joining := (joinNext c.aim pid r c.joining).1 } todo := by
  obtain ⟨member, found⟩ := arriving.exists_member
  rcases Group.joinNext_cases c.aim found c.joining with
    ⟨target, r', due, moved, result⟩ | ⟨old, asks, aim, -, empty, result⟩ | ⟨placed, result⟩
  · have touches : Touches shellGroup next pid r r' := .of_setGroup moved
    rw [result]
    refine ⟨arriving.aim, arriving.unsignalled, arriving.apart, arriving.other,
      fun _ _ _ => rfl, ?_, .inr ⟨target, Roster.groupOf?_of_setGroup moved, ?_⟩⟩
    · rintro (⟨⟨⟩⟩ | leads)
      obtain ⟨old, known, gone⟩ := arriving.gone (.inr leads)
      exact ⟨old, known, gone.touched touches (Nat.le_refl next)⟩
    · rcases due with ⟨-, rfl⟩ | ⟨leads, rfl⟩
      · exact .inl (by rw [arriving.aim])
      · obtain ⟨old, known, gone⟩ := arriving.gone (.inl leads)
        exact .inr ⟨rfl, old, known, gone.touched touches (Nat.le_refl next)⟩
  · have known : id = some old := arriving.aim ▸ aim
    rw [result]
    refine ⟨arriving.aim, arriving.unsignalled, arriving.apart, arriving.other, ?_,
      fun _ => ⟨old, known, vanished old known empty⟩, ?_⟩
    · intro member found late
      have placed := arriving.early member found late
      rw [asks] at placed
      cases placed
    · rcases arriving.spot with ⟨waits, -, here⟩ | there
      · exact .inl ⟨waits, by rintro ⟨⟩, here⟩
      · exact .inr there
  · rw [result, ← placed]
    exact arriving

theorem place (vanished : ∀ old, id = some old → r.hasGroup old = false →
      Gone shellGroup next r old) :
    Arriving shellGroup next (placeNext id pid r todo).2 id pid c (placeNext id pid r todo).1 := by
  obtain ⟨member, found⟩ := arriving.exists_member
  rcases Group.placeNext_cases id found todo with
    ⟨target, r', due, moved, result⟩ | ⟨old, asks, known, -, empty, result⟩ | ⟨late, result⟩
  · have touches : Touches shellGroup next pid r r' := .of_setGroup moved
    rw [result]
    refine ⟨arriving.aim, arriving.unsignalled, arriving.apart, arriving.other, ?_, ?_,
      .inr ⟨target, Roster.groupOf?_of_setGroup moved, ?_⟩⟩
    · intro member' found' execed
      obtain ⟨before, was, now⟩ := Roster.member?_of_setGroup moved
      obtain rfl := Option.some.inj (now.symm.trans found')
      exact arriving.early before was execed
    · rintro (leads | ⟨⟨⟩⟩)
      obtain ⟨old, known, gone⟩ := arriving.gone (.inl leads)
      exact ⟨old, known, gone.touched touches (Nat.le_refl next)⟩
    · rcases due with ⟨-, rfl⟩ | ⟨leads, rfl⟩
      · exact .inl rfl
      · obtain ⟨old, known, gone⟩ := arriving.gone (.inr leads)
        exact .inr ⟨rfl, old, known, gone.touched touches (Nat.le_refl next)⟩
  · rw [result]
    refine ⟨arriving.aim, arriving.unsignalled, arriving.apart, arriving.other,
      arriving.early, fun _ => ⟨old, known, vanished old known empty⟩, ?_⟩
    rcases arriving.spot with ⟨-, waits, here⟩ | there
    · exact .inl ⟨by rintro ⟨⟩, waits, here⟩
    · exact .inr there
  · rw [result]
    refine ⟨arriving.aim, arriving.unsignalled, arriving.apart, arriving.other,
      arriving.early, ?_, ?_⟩
    · rintro (leads | ⟨⟨⟩⟩)
      exact arriving.gone (.inl leads)
    · -- the shell is too late only for a child that has seen to itself
      rcases arriving.spot with ⟨due, waits, -⟩ | there
      · rcases late with looked | execed
        · exact absurd looked due
        · exact absurd (arriving.early member found execed) waits
      · exact .inr there

theorem exec (placed : c.joining = .placed) :
    Arriving shellGroup next (r.exec pid) id pid c todo where
  aim := arriving.aim
  unsignalled := arriving.unsignalled
  apart := arriving.apart
  other := arriving.other
  early _ _ _ := placed
  gone due := by
    obtain ⟨old, known, gone⟩ := arriving.gone due
    exact ⟨old, known, gone.touched Touches.exec (Nat.le_refl next)⟩
  spot := by
    rw [Roster.groupOf?_exec]
    rcases arriving.spot with waits | ⟨group, here, meant⟩
    · exact .inl waits
    · exact .inr ⟨group, here, meant.touched Touches.exec (Nat.le_refl next)⟩

end Arriving

/-- When every attempt was made, the child is where it is meant to be. -/
theorem Arriving.stands (arriving : Arriving shellGroup next r id pid c .looking)
    (apart : ∀ old, id = some old → old ≠ shellGroup) :
    ∃ group, Stands shellGroup next r pid c group ∧ Meant shellGroup next r id pid group := by
  rcases arriving.spot with ⟨due, -⟩ | ⟨group, here, meant⟩
  · exact absurd rfl due
  · refine ⟨group, ⟨here, ?_, fun _ => arriving.aim ▸ meant, ?_⟩, meant⟩
    · rcases meant with rfl | ⟨rfl, -⟩
      · cases known : id with
        | none => exact arriving.apart
        | some old => exact apart old known
      · exact arriving.apart
    · intro leads
      obtain ⟨old, known, gone⟩ := arriving.gone (.inl leads)
      rcases meant with there | ⟨own, -⟩
      · rw [known, Option.getD_some] at there
        exact absurd there.symm (gone.ne here)
      · exact own

end Children

end Family

end PipeShell
