import PipeShell.Job.Roster

/-!
# What changes a roster

Each call on a roster touches one process: the one that is born, moved, turned into a program or
waited for.  All others stay where they are (`Roster.Touches`), and a group that has neither a
member nor the process that it is named after never comes back to life (`Gone.touched`).
-/

set_option autoImplicit false

namespace PipeShell.Roster

variable {r r' r'' : Roster} {pid other group shellGroup next : Nat}

/-! ## Looking up -/

theorem pid_of_member? {member : Member} (found : r.member? pid = some member) :
    member.pid = pid := by
  simpa using List.find?_some found

theorem member?_update {change : Member → Member}
    (named : ∀ member, (change member).pid = member.pid) :
    (r.update pid change).member? other =
      if other = pid then (r.member? other).map change else r.member? other := by
  let f : Member → Member := fun member => if member.pid = pid then change member else member
  have kept : ∀ member, (f member).pid = member.pid := by
    intro member
    by_cases acts : member.pid = pid <;> simp [f, acts, named]
  have mapped : (r.update pid change).member? other = (r.member? other).map f := by
    show (r.members.map f).find? _ = _
    rw [List.find?_map]
    simp only [Function.comp_def, kept]
    rfl
  rw [mapped]
  cases found : r.member? other with
  | none => simp
  | some member =>
      have here : member.pid = other := pid_of_member? found
      by_cases same : other = pid <;> simp [f, here, same]

theorem member?_fork : (r.fork pid group).member? other =
    (r.member? other).or
      (if other = pid then some { pid, group, execed := false } else none) := by
  simp only [fork, member?, List.find?_append, List.find?_singleton, decide_eq_true_eq]
  by_cases same : other = pid
  · rw [if_pos same, if_pos same.symm]
  · rw [if_neg same, if_neg (Ne.symm same)]

theorem member?_reap :
    (r.reap pid).member? other = if other = pid then none else r.member? other := by
  simp only [reap, member?, List.find?_filter]
  split
  · next same =>
      rw [List.find?_eq_none]
      intro member _
      simp [same]
  · next different =>
      congr 1
      funext member
      by_cases here : member.pid = other <;> simp [here, different]

theorem groupOf?_eq_some_iff :
    r.groupOf? pid = some group ↔ ∃ member, r.member? pid = some member ∧ member.group = group :=
  Option.map_eq_some_iff

theorem hasGroup_eq_true_iff :
    r.hasGroup group = true ↔ ∃ member ∈ r.members, member.group = group := by
  simp [hasGroup, List.any_eq_true]

theorem hasGroup_of_groupOf? (here : r.groupOf? pid = some group) : r.hasGroup group = true := by
  obtain ⟨member, found, same⟩ := groupOf?_eq_some_iff.mp here
  exact hasGroup_eq_true_iff.mpr ⟨member, List.mem_of_find?_eq_some found, same⟩

theorem mem_pidsOf (here : r.groupOf? pid = some group) : pid ∈ r.pidsOf group := by
  obtain ⟨member, found, same⟩ := groupOf?_eq_some_iff.mp here
  have named := pid_of_member? found
  refine List.mem_map.mpr ⟨member, List.mem_filter.mpr ⟨List.mem_of_find?_eq_some found, ?_⟩, named⟩
  simpa using same

/-! ## Moving a process -/

/-- A process that is there can be moved unless its parent is too late, and into a group that has a
member or is named after it. -/
theorem setGroup_eq_ok_iff {mover : Mover} : r.setGroup mover pid group = .ok r' ↔
    ∃ member, r.member? pid = some member ∧ ¬ (mover = .parent ∧ member.execed = true) ∧
      (group = pid ∨ r.hasGroup group = true) ∧
      r' = r.update pid fun member => { member with group } := by
  unfold setGroup
  cases found : r.member? pid with
  | none => simp
  | some member =>
      dsimp only
      constructor
      · intro moved
        split at moved
        · cases moved
        · next early =>
            split at moved
            · cases moved
            · next allowed =>
                cases moved
                refine ⟨member, rfl, by simpa using early, ?_, rfl⟩
                by_cases own : group = pid
                · exact .inl own
                · exact .inr (by simpa [own] using allowed)
      · rintro ⟨member', same, early, allowed, rfl⟩
        obtain rfl := Option.some.inj same
        have admitted : ¬ (group ≠ pid && !r.hasGroup group) = true := by
          rcases allowed with own | had
          · simp [own]
          · simp [had]
        rw [if_neg (by simpa using early), if_neg admitted]

theorem setGroup_refused {mover : Mover} {cause : Errno}
    (refused : r.setGroup mover pid group = .error cause) {member : Member}
    (found : r.member? pid = some member) :
    (cause = .accessDenied ∧ mover = .parent ∧ member.execed = true) ∨
      (cause = .notPermitted ∧ group ≠ pid ∧ r.hasGroup group = false) := by
  unfold setGroup at refused
  rw [found] at refused
  dsimp only at refused
  split at refused
  · next late =>
      cases refused
      exact .inl ⟨rfl, by simpa using late⟩
  · split at refused
    · next gone =>
        cases refused
        exact .inr ⟨rfl, by simpa using gone⟩
    · cases refused

section Moved

variable {mover : Mover} (moved : r.setGroup mover pid group = .ok r')

include moved

theorem member?_of_setGroup :
    ∃ member, r.member? pid = some member ∧ r'.member? pid = some { member with group } := by
  obtain ⟨member, found, -, -, rfl⟩ := setGroup_eq_ok_iff.mp moved
  refine ⟨member, found, ?_⟩
  rw [member?_update, if_pos rfl, found]
  · rfl
  · exact fun _ => rfl

theorem groupOf?_of_setGroup : r'.groupOf? pid = some group := by
  obtain ⟨member, -, found⟩ := member?_of_setGroup moved
  exact groupOf?_eq_some_iff.mpr ⟨_, found, rfl⟩

end Moved

theorem member?_exec_of_ne (different : other ≠ pid) :
    (r.exec pid).member? other = r.member? other :=
  Eq.trans (member?_update fun _ => rfl) (if_neg different)

theorem groupOf?_exec : (r.exec pid).groupOf? other = r.groupOf? other := by
  have named : ∀ member : Member, ({ member with execed := true } : Member).pid = member.pid :=
    fun _ => rfl
  rw [groupOf?, groupOf?, exec, member?_update named]
  split
  · cases r.member? other <;> rfl
  · rfl

theorem member?_fork_self (absent : r.member? pid = none) :
    (r.fork pid group).member? pid = some { pid, group, execed := false } := by
  rw [member?_fork, absent, if_pos rfl, Option.none_or]

/-! ## One process at a time -/

/-- The second roster came from the first by a call for one process.  A group gains a member only if
it had one, or if it is that of the shell or of the process itself; nobody takes a number below
`next`. -/
structure Touches (shellGroup next pid : Nat) (r r' : Roster) : Prop where
  others : ∀ other, other ≠ pid → r'.member? other = r.member? other
  groups : ∀ group, r'.hasGroup group = true → r.hasGroup group = true ∨ group = shellGroup ∨
    (group = pid ∧ r.member? pid ≠ none)
  absent : pid < next → r.member? pid = none → r'.member? pid = none

namespace Touches

theorem groupOf? (touches : Touches shellGroup next pid r r') (different : other ≠ pid) :
    r'.groupOf? other = r.groupOf? other := by
  rw [Roster.groupOf?, touches.others other different]
  rfl

theorem refl : Touches shellGroup next pid r r :=
  ⟨fun _ _ => rfl, fun _ here => .inl here, fun _ none => none⟩

theorem update {change : Member → Member} (named : ∀ member, (change member).pid = member.pid)
    (grouped : ∀ member, (change member).group = member.group ∨
      r.hasGroup (change member).group = true ∨
      ((change member).group = pid ∧ r.member? pid ≠ none)) :
    Touches shellGroup next pid r (r.update pid change) where
  others other different := by rw [member?_update named, if_neg different]
  groups group here := by
    obtain ⟨member, listed, rfl⟩ := hasGroup_eq_true_iff.mp here
    obtain ⟨before, was, rfl⟩ := List.mem_map.mp listed
    have had : r.hasGroup before.group = true := hasGroup_eq_true_iff.mpr ⟨before, was, rfl⟩
    split
    · rcases grouped before with same | had' | own
      · exact .inl (same ▸ had)
      · exact .inl had'
      · exact .inr (.inr own)
    · exact .inl had
  absent _ none := by rw [member?_update named, if_pos rfl, none]; rfl

theorem of_setGroup {mover : Mover} (moved : r.setGroup mover pid group = .ok r') :
    Touches shellGroup next pid r r' := by
  obtain ⟨member, found, -, allowed, rfl⟩ := setGroup_eq_ok_iff.mp moved
  have present : r.member? pid ≠ none := by simp [found]
  refine update (fun _ => rfl) fun _ => ?_
  rcases allowed with own | had
  · exact .inr (.inr ⟨own, present⟩)
  · exact .inr (.inl had)

theorem exec : Touches shellGroup next pid r (r.exec pid) :=
  update (fun _ => rfl) fun _ => .inl rfl

theorem reap : Touches shellGroup next pid r (r.reap pid) where
  others other different := by rw [member?_reap, if_neg different]
  groups group here := by
    obtain ⟨member, listed, same⟩ := hasGroup_eq_true_iff.mp here
    exact .inl (hasGroup_eq_true_iff.mpr ⟨member, (List.mem_filter.mp listed).1, same⟩)
  absent _ _ := by rw [member?_reap, if_pos rfl]

theorem fork (grouped : group = shellGroup ∨ r.hasGroup group = true) :
    Touches shellGroup next next r (r.fork next group) where
  others other different := by rw [member?_fork, if_neg different, Option.or_none]
  groups other here := by
    obtain ⟨member, listed, rfl⟩ := hasGroup_eq_true_iff.mp here
    rcases List.mem_append.mp listed with was | born
    · exact .inl (hasGroup_eq_true_iff.mpr ⟨member, was, rfl⟩)
    · obtain rfl := List.mem_singleton.mp born
      rcases grouped with own | had
      · exact .inr (.inl own)
      · exact .inl had
  absent below := absurd below (Nat.lt_irrefl next)

end Touches

/-! ## Groups that are gone -/

/-- Nobody is in the group, and nobody can begin it again. -/
structure Gone (shellGroup next : Nat) (r : Roster) (group : Nat) : Prop where
  empty : r.hasGroup group = false
  leader : r.member? group = none
  taken : group < next
  apart : group ≠ shellGroup

theorem Gone.touched {next' : Nat} (gone : Gone shellGroup next r group)
    (touches : Touches shellGroup next pid r r') (later : next ≤ next') :
    Gone shellGroup next' r' group where
  empty := by
    rw [← Bool.not_eq_true]
    intro here
    rcases touches.groups group here with had | own | ⟨rfl, present⟩
    · rw [gone.empty] at had
      cases had
    · exact gone.apart own
    · exact present gone.leader
  leader := by
    by_cases same : group = pid
    · subst same
      exact touches.absent gone.taken gone.leader
    · rw [touches.others group same, gone.leader]
  taken := Nat.lt_of_lt_of_le gone.taken later
  apart := gone.apart

/-- A process is in no group that is gone. -/
theorem Gone.ne (gone : Gone shellGroup next r group) (here : r.groupOf? pid = some other) :
    group ≠ other := by
  rintro rfl
  have had := hasGroup_of_groupOf? here
  rw [gone.empty] at had
  cases had

/-! ## While the shell waits -/

/-- What becomes of a roster while other processes run: one is born into the group of another, with
the next number, or one is waited for. -/
inductive Evolves (shellGroup : Nat) (r : Roster) (next : Nat) : Roster → Nat → Prop where
  | refl : Evolves shellGroup r next r next
  | born {r' : Roster} {next' : Nat} (before : Evolves shellGroup r next r' next') (parent : Nat) :
      Evolves shellGroup r next (r'.fork next' ((r'.groupOf? parent).getD shellGroup)) (next' + 1)
  | reaped {r' : Roster} {next' : Nat} (before : Evolves shellGroup r next r' next') (pid : Nat) :
      Evolves shellGroup r next (r'.reap pid) next'

theorem Evolves.trans {next' next'' : Nat} (first : Evolves shellGroup r next r' next')
    (second : Evolves shellGroup r' next' r'' next'') : Evolves shellGroup r next r'' next'' := by
  induction second with
  | refl => exact first
  | born _ parent ih => exact ih.born parent
  | reaped _ pid ih => exact ih.reaped pid

end PipeShell.Roster
