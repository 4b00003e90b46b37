import PipeShell.Job.Group
import PipeShell.Proofs.Job.Roster

/-!
# How a child comes to its group, call by call

The child asks for the session's group and, if that is gone, begins one of its own; the shell does
the same for the child and then looks where the child is.  Other processes may take their turns
between any two of these calls.  `joinNext` and `placeNext` are one call each, and without a break
they come to what `Group.join`, `Group.place` and `Group.adopt` do.
-/

set_option autoImplicit false

namespace PipeShell.Group

open Roster (Touches)

/-- What a child has still to do before it turns into its program. -/
inductive Joining where
  | asking
  /-- The session's group is gone, so the child is to begin its own. -/
  | leading
  | placed
  deriving DecidableEq, Repr

/-- What the shell has still to do before the launch of a child is over. -/
inductive Placing where
  | asking
  /-- The session's group is gone, so the child is to begin its own. -/
  | leading
  /-- Every attempt was made. -/
  | looking
  deriving DecidableEq, Repr

/-- The next call of a child that knows of the group `aim`. -/
def joinNext (aim : Option Nat) (child : Nat) (r : Roster) : Joining → Joining × Roster
  | .asking =>
    match r.setGroup .itself child (aim.getD child) with
    | .ok r => (.placed, r)
    | .error _ => (.leading, r)
  | .leading =>
    match r.setGroup .itself child child with
    | .ok r => (.placed, r)
    | .error _ => (.placed, r)
  | .placed => (.placed, r)

/-- The next attempt of the shell to place a child. -/
def placeNext (id : Option Nat) (child : Nat) (r : Roster) : Placing → Placing × Roster
  | .asking =>
    match r.setGroup .parent child (id.getD child) with
    | .ok r => (.looking, r)
    | .error cause => if cause = .notPermitted && id.isSome then (.leading, r) else (.looking, r)
  | .leading =>
    match r.setGroup .parent child child with
    | .ok r => (.looking, r)
    | .error _ => (.looking, r)
  | .looking => (.looking, r)

/-- The session's group once the shell has looked where a child is. -/
def look (shellGroup : Nat) (id : Option Nat) (child : Nat) (r : Roster) : Option Nat :=
  match r.groupOf? child with
  | some group => if group = shellGroup then id else some group
  | none => id

variable (shellGroup : Nat) (id : Option Nat) (child : Nat) (r : Roster)

/-- All calls of the child, without a break. -/
theorem join_eq : join id child r =
    (joinNext id child (joinNext id child r .asking).2 (joinNext id child r .asking).1).2 := by
  cases asked : r.setGroup .itself child (id.getD child) with
  | ok r => simp [join, joinNext, asked]
  | error cause =>
      cases led : r.setGroup .itself child child <;> simp [join, joinNext, asked, led]

/-- All attempts of the shell, without a break. -/
theorem place_eq : place id child r =
    (placeNext id child (placeNext id child r .asking).2 (placeNext id child r .asking).1).2 := by
  cases asked : r.setGroup .parent child (id.getD child) with
  | ok r => simp [place, placeNext, asked]
  | error cause =>
      by_cases gone : (cause = .notPermitted && id.isSome) = true
      · cases led : r.setGroup .parent child child <;> simp [place, placeNext, asked, led, gone]
      · simp [place, placeNext, asked, gone]

theorem fst_joinNext_asking : (joinNext id child r .asking).1 ≠ .asking := by
  cases asked : r.setGroup .itself child (id.getD child) <;> simp [joinNext, asked]

theorem fst_joinNext_of_ne {todo : Joining} (asked : todo ≠ .asking) :
    (joinNext id child r todo).1 = .placed := by
  cases todo with
  | asking => exact absurd rfl asked
  | leading => cases led : r.setGroup .itself child child <;> simp [joinNext, led]
  | placed => rfl

theorem fst_placeNext_asking :
    (placeNext id child r .asking).1 = .leading ∨ (placeNext id child r .asking).1 = .looking := by
  cases asked : r.setGroup .parent child (id.getD child) with
  | ok r => exact .inr (by simp [placeNext, asked])
  | error cause =>
      by_cases gone : (cause = .notPermitted && id.isSome) = true
      · exact .inl (by simp [placeNext, asked, gone])
      · exact .inr (by simp [placeNext, asked, gone])

theorem fst_placeNext_leading : (placeNext id child r .leading).1 = .looking := by
  cases led : r.setGroup .parent child child <;> simp [placeNext, led]

theorem adopt_eq : (adopt shellGroup id child r).1 = look shellGroup id child (place id child r) ∧
    (adopt shellGroup id child r).2.1 = place id child r := by
  unfold adopt look
  dsimp only
  cases (place id child r).groupOf? child with
  | none => exact ⟨rfl, rfl⟩
  | some group => by_cases own : group = shellGroup <;> simp [own]

/-! ## Other processes -/

section Others

variable {shellGroup next : Nat}

theorem touches_joinNext (todo : Joining) :
    Touches shellGroup next child r (joinNext id child r todo).2 := by
  cases todo with
  | asking =>
      cases asked : r.setGroup .itself child (id.getD child) with
      | ok r' => simpa [joinNext, asked] using Touches.of_setGroup asked
      | error cause => simpa [joinNext, asked] using Touches.refl
  | leading =>
      cases led : r.setGroup .itself child child with
      | ok r' => simpa [joinNext, led] using Touches.of_setGroup led
      | error cause => simpa [joinNext, led] using Touches.refl
  | placed => exact .refl

theorem touches_placeNext (todo : Placing) :
    Touches shellGroup next child r (placeNext id child r todo).2 := by
  cases todo with
  | asking =>
      cases asked : r.setGroup .parent child (id.getD child) with
      | ok r' => simpa [placeNext, asked] using Touches.of_setGroup asked
      | error cause =>
          simp only [placeNext, asked]
          split <;> exact .refl
  | leading =>
      cases led : r.setGroup .parent child child with
      | ok r' => simpa [placeNext, led] using Touches.of_setGroup led
      | error cause => simpa [placeNext, led] using Touches.refl
  | looking => exact .refl

end Others

theorem member?_enroll (order : Handshake) {other : Nat} (different : other ≠ child) :
    (enroll order shellGroup id child r).2.1.member? other = r.member? other := by
  have joins : ∀ r todo, (joinNext id child r todo).2.member? other = r.member? other :=
    fun r todo => (touches_joinNext id child r todo : Touches 0 0 child r _).others other different
  have places : ∀ r todo, (placeNext id child r todo).2.member? other = r.member? other :=
    fun r todo => (touches_placeNext id child r todo : Touches 0 0 child r _).others other different
  cases order <;>
    simp only [enroll, adopt_eq, join_eq, place_eq, Roster.member?_exec_of_ne different, joins,
      places]

/-! ## What one call comes to -/

section Calls

variable {child : Nat} {r : Roster} {member : Member}

/-- A call of the child moves it, or it tells it that the session's group is gone, or none was
left. -/
theorem joinNext_cases (aim : Option Nat) (found : r.member? child = some member)
    (todo : Joining) :
    (∃ target r', (todo = .asking ∧ target = aim.getD child ∨ todo = .leading ∧ target = child) ∧
      r.setGroup .itself child target = .ok r' ∧ joinNext aim child r todo = (.placed, r')) ∨
    (∃ old, todo = .asking ∧ aim = some old ∧ old ≠ child ∧ r.hasGroup old = false ∧
      joinNext aim child r todo = (.leading, r)) ∨
    (todo = .placed ∧ joinNext aim child r todo = (.placed, r)) := by
  cases todo with
  | asking =>
      cases asked : r.setGroup .itself child (aim.getD child) with
      | ok r' => exact .inl ⟨_, r', .inl ⟨rfl, rfl⟩, asked, by simp [joinNext, asked]⟩
      | error cause =>
          rcases Roster.setGroup_refused asked found with ⟨-, ⟨⟩, -⟩ | ⟨-, other, empty⟩
          cases aim with
          | none => exact absurd rfl other
          | some old =>
              rw [Option.getD_some] at asked other empty
              exact .inr (.inl ⟨old, rfl, rfl, other, empty, by simp [joinNext, asked]⟩)
  | leading =>
      cases led : r.setGroup .itself child child with
      | ok r' => exact .inl ⟨_, r', .inr ⟨rfl, rfl⟩, led, by simp [joinNext, led]⟩
      | error cause =>
          rcases Roster.setGroup_refused led found with ⟨-, ⟨⟩, -⟩ | ⟨-, other, -⟩
          exact absurd rfl other
  | placed => exact .inr (.inr ⟨rfl, rfl⟩)

/-- A call of the shell moves the child, or it tells the shell that the session's group is gone, or
it comes too late. -/
theorem placeNext_cases (id : Option Nat) (found : r.member? child = some member)
    (todo : Placing) :
    (∃ target r', (todo = .asking ∧ target = id.getD child ∨ todo = .leading ∧ target = child) ∧
      r.setGroup .parent child target = .ok r' ∧ placeNext id child r todo = (.looking, r')) ∨
    (∃ old, todo = .asking ∧ id = some old ∧ old ≠ child ∧ r.hasGroup old = false ∧
      placeNext id child r todo = (.leading, r)) ∨
    ((todo = .looking ∨ member.execed = true) ∧ placeNext id child r todo = (.looking, r)) := by
  cases todo with
  | asking =>
      cases asked : r.setGroup .parent child (id.getD child) with
      | ok r' => exact .inl ⟨_, r', .inl ⟨rfl, rfl⟩, asked, by simp [placeNext, asked]⟩
      | error cause =>
          rcases Roster.setGroup_refused asked found with ⟨rfl, -, late⟩ | ⟨rfl, other, empty⟩
          · exact .inr (.inr ⟨.inr late, by
              simp [placeNext, asked, Errno.accessDenied, Errno.notPermitted]⟩)
          · cases id with
            | none => exact absurd rfl other
            | some old =>
                rw [Option.getD_some] at asked other empty
                exact .inr (.inl ⟨old, rfl, rfl, other, empty, by simp [placeNext, asked]⟩)
  | leading =>
      cases led : r.setGroup .parent child child with
      | ok r' => exact .inl ⟨_, r', .inr ⟨rfl, rfl⟩, led, by simp [placeNext, led]⟩
      | error cause =>
          rcases Roster.setGroup_refused led found with ⟨-, -, late⟩ | ⟨-, other, -⟩
          · exact .inr (.inr ⟨.inr late, by simp [placeNext, led]⟩)
          · exact absurd rfl other
  | looking => exact .inr (.inr ⟨.inl rfl, rfl⟩)

end Calls

end PipeShell.Group
