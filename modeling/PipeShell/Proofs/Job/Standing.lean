import PipeShell.Proofs.Job.Family

/-!
# What holds at every moment of a session

A launched child that was not signalled is in the session's group, and the calls that it has still
to make keep it there.  `sound_act` shows that each event keeps this, one case per event; `sound_run`
goes through a whole run.
-/

set_option autoImplicit false

namespace PipeShell.Family

open PipeShell.Group (Joining Placing joinNext placeNext look)
open Roster (Gone Touches)

/-- The process that the group is named after is a child in the group, or it is gone. -/
structure Owned (shellGroup : Nat) (f : Family) (group : Nat) : Prop where
  apart : group ≠ shellGroup
  taken : group < f.next
  leader : ∀ other, f.roster.groupOf? group = some other → other = group ∧ f.children group ≠ none

structure Sound (shellGroup : Nat) (f : Family) : Prop where
  fresh : ∀ pid, f.next ≤ pid → f.roster.member? pid = none
  shell : shellGroup < f.next
  owned : ∀ group, f.group = some group → Owned shellGroup f group
  launched : ∀ pid c, f.children pid = some c → (∀ todo, f.newcomer ≠ some (pid, todo)) →
    ∃ group, Stands shellGroup f.next f.roster pid c group ∧
      (c.signalled = false → f.group = some group)
  arriving : ∀ pid todo, f.newcomer = some (pid, todo) →
    ∃ c, f.children pid = some c ∧ Arriving shellGroup f.next f.roster f.group pid c todo

variable {shellGroup next : Nat} {f : Family} {r' : Roster} {pid actor group : Nat} {c : Child}

/-! ## Groups that are gone -/

/-- Whatever happens, it happens to one process. -/
theorem touches_act (shellGroup : Nat) (f : Family) (event : Event) : ∃ actor,
    Touches shellGroup f.next actor f.roster (act shellGroup f event).roster ∧
      f.next ≤ (act shellGroup f event).next := by
  have kept : ∃ actor, Touches shellGroup f.next actor f.roster f.roster ∧ f.next ≤ f.next :=
    ⟨0, .refl, Nat.le_refl _⟩
  cases event with
  | fork =>
      simp only [act]
      split
      · exact kept
      · exact ⟨_, .fork (.inl rfl), Nat.le_succ _⟩
  | place =>
      simp only [act]
      split
      · next pid todo _ =>
          cases todo with
          | looking => exact kept
          | asking => exact ⟨pid, Group.touches_placeNext .., Nat.le_refl _⟩
          | leading => exact ⟨pid, Group.touches_placeNext .., Nat.le_refl _⟩
      · exact kept
  | join pid =>
      simp only [act]
      repeat' split
      · exact kept
      · exact ⟨pid, Group.touches_joinNext .., Nat.le_refl _⟩
      · exact kept
  | exec pid =>
      simp only [act]
      repeat' split
      · exact ⟨pid, .exec, Nat.le_refl _⟩
      all_goals exact kept
  | exit pid =>
      simp only [act]
      split <;> exact kept
  | reap pid =>
      simp only [act]
      repeat' split
      · exact ⟨pid, .reap, Nat.le_refl _⟩
      · exact kept
      · exact ⟨pid, .reap, Nat.le_refl _⟩
  | terminate =>
      simp only [act]
      split <;> exact kept
  | bear parent =>
      refine ⟨_, .fork ?_, Nat.le_succ _⟩
      cases here : f.roster.groupOf? parent with
      | none => exact .inl rfl
      | some group => exact .inr (Roster.hasGroup_of_groupOf? here)
  | move pid group =>
      simp only [act]
      split
      · exact kept
      · split
        · next moved => exact ⟨pid, .of_setGroup moved, Nat.le_refl _⟩
        · exact kept

theorem gone_act (gone : Gone shellGroup f.next f.roster group) (event : Event) :
    Gone shellGroup (act shellGroup f event).next (act shellGroup f event).roster group := by
  obtain ⟨actor, touches, later⟩ := touches_act shellGroup f event
  exact gone.touched touches later

/-! ## What a sound session is like -/

theorem Owned.gone (owned : Owned shellGroup f group) (empty : f.roster.hasGroup group = false) :
    Gone shellGroup f.next f.roster group where
  empty := empty
  leader := by
    cases found : f.roster.member? group with
    | none => rfl
    | some member =>
        have here : f.roster.groupOf? group = some member.group :=
          Roster.groupOf?_eq_some_iff.mpr ⟨member, found, rfl⟩
        obtain ⟨own, -⟩ := owned.leader _ here
        have had := Roster.hasGroup_of_groupOf? here
        rw [own, empty] at had
        cases had
  taken := owned.taken
  apart := owned.apart

namespace Sound

variable (sound : Sound shellGroup f)

include sound

theorem vanished : ∀ old, f.group = some old → f.roster.hasGroup old = false →
    Gone shellGroup f.next f.roster old :=
  fun old known empty => (sound.owned old known).gone empty

/-- A child is on the roster until it was waited for. -/
theorem exists_member (known : f.children pid = some c) :
    ∃ member, f.roster.member? pid = some member := by
  by_cases new : ∀ todo, f.newcomer ≠ some (pid, todo)
  · obtain ⟨group, stands, -⟩ := sound.launched pid c known new
    obtain ⟨member, found, -⟩ := Roster.groupOf?_eq_some_iff.mp stands.here
    exact ⟨member, found⟩
  · obtain ⟨todo, new⟩ := Classical.not_forall_not.mp new
    obtain ⟨c', -, arriving⟩ := sound.arriving pid todo new
    exact arriving.exists_member

theorem lt_next (known : f.children pid = some c) : pid < f.next := by
  obtain ⟨member, found⟩ := sound.exists_member known
  by_contra late
  rw [sound.fresh pid (by omega)] at found
  cases found

/-- Nobody takes the number of a process to come by what one process does. -/
theorem fresh_touched (touches : Touches shellGroup f.next actor f.roster r')
    (below : actor < f.next) : ∀ pid, f.next ≤ pid → r'.member? pid = none := by
  intro pid late
  rw [touches.others pid (by omega), sound.fresh pid late]

theorem unborn : f.children f.next = none := by
  cases known : f.children f.next with
  | none => rfl
  | some c => exact absurd (sound.lt_next known) (Nat.lt_irrefl _)

theorem fresh_born (touches : Touches shellGroup f.next f.next f.roster r') :
    ∀ pid, f.next + 1 ≤ pid → r'.member? pid = none := by
  intro pid late
  rw [touches.others pid (by omega), sound.fresh pid (by omega)]

/-- What a process does that is no child of the shell. -/
theorem stranger (foreign : f.children actor = none)
    (touches : Touches shellGroup f.next actor f.roster r') {next : Nat} (later : f.next ≤ next)
    (fresh : ∀ pid, next ≤ pid → r'.member? pid = none) :
    Sound shellGroup { f with roster := r', next } where
  fresh := fresh
  shell := Nat.lt_of_lt_of_le sound.shell later
  owned group known := by
    obtain ⟨apart, taken, leader⟩ := sound.owned group known
    refine ⟨apart, Nat.lt_of_lt_of_le taken later, fun other here => ?_⟩
    by_cases same : group = actor
    · -- the number of the group belongs to no process
      have absent : f.roster.member? group = none := by
        cases found : f.roster.member? group with
        | none => rfl
        | some member =>
            obtain ⟨-, known⟩ :=
              leader member.group (Roster.groupOf?_eq_some_iff.mpr ⟨member, found, rfl⟩)
            exact absurd (same ▸ foreign) known
      subst same
      obtain ⟨member, found, -⟩ := Roster.groupOf?_eq_some_iff.mp here
      rw [touches.absent taken absent] at found
      cases found
    · exact leader other (by rw [← touches.groupOf? same, here])
  launched pid c known launched := by
    have other : pid ≠ actor := by
      rintro rfl
      rw [foreign] at known
      cases known
    obtain ⟨group, stands, together⟩ := sound.launched pid c known launched
    exact ⟨group, stands.touched touches later (touches.groupOf? other), together⟩
  arriving pid todo new := by
    obtain ⟨c, known, arriving⟩ := sound.arriving pid todo new
    have other : pid ≠ actor := by
      rintro rfl
      rw [foreign] at known
      cases known
    exact ⟨c, known, arriving.touched touches later (touches.others pid other)⟩

/-- What a child does, or what the shell does for it until it is launched. -/
theorem child {c' : Child} {newcomer : Option (Nat × Placing)} (known : f.children pid = some c)
    (touches : Touches shellGroup f.next pid f.roster r')
    (signalled : c'.signalled = c.signalled)
    (arrives : ∀ todo, f.newcomer = some (pid, todo) →
      Arriving shellGroup f.next f.roster f.group pid c todo →
      ∃ todo', newcomer = some (pid, todo') ∧
        Arriving shellGroup f.next r' f.group pid c' todo')
    (stands : (∀ todo, f.newcomer ≠ some (pid, todo)) → newcomer = f.newcomer ∧
      ∀ group, Stands shellGroup f.next f.roster pid c group →
        Stands shellGroup f.next r' pid c' group) :
    Sound shellGroup
      { f with roster := r', children := Function.update f.children pid (some c'), newcomer } where
  fresh := sound.fresh_touched touches (sound.lt_next known)
  shell := sound.shell
  owned group grouped := by
    obtain ⟨apart, taken, leader⟩ := sound.owned group grouped
    refine ⟨apart, taken, fun other here => ?_⟩
    by_cases same : group = pid
    · subst same
      refine ⟨?_, by simp⟩
      by_cases launched : ∀ todo, f.newcomer ≠ some (group, todo)
      · obtain ⟨group', before, -⟩ := sound.launched group c known launched
        have now := ((stands launched).2 group' before).here
        rw [here] at now
        rw [Option.some.inj now]
        exact (leader group' before.here).1
      · -- the session's group is not named after a child that is still on its way
        obtain ⟨todo, new⟩ := Classical.not_forall_not.mp launched
        obtain ⟨c'', -, arriving⟩ := sound.arriving group todo new
        exact absurd rfl (arriving.other group grouped)
    · rw [touches.groupOf? same] at here
      obtain ⟨own, present⟩ := leader other here
      exact ⟨own, (Function.update_of_ne same ..).trans_ne present⟩
  launched other c'' known' launched := by
    dsimp only at known'
    by_cases same : other = pid
    · subst same
      rw [Function.update_self] at known'
      obtain rfl := Option.some.inj known'
      have before : ∀ todo, f.newcomer ≠ some (other, todo) := by
        intro todo new
        obtain ⟨c'', known'', arriving⟩ := sound.arriving other todo new
        obtain rfl := Option.some.inj (known.symm.trans known'')
        obtain ⟨todo', new', -⟩ := arrives todo new arriving
        exact launched todo' new'
      obtain ⟨group, stood, together⟩ := sound.launched other c known before
      exact ⟨group, (stands before).2 group stood, fun free => together (signalled ▸ free)⟩
    · rw [Function.update_of_ne same] at known'
      have before : ∀ todo, f.newcomer ≠ some (other, todo) := by
        intro todo new
        have apart : ∀ todo, f.newcomer ≠ some (pid, todo) := by
          intro todo' new'
          rw [new] at new'
          exact same (Prod.mk.inj (Option.some.inj new')).1
        exact launched todo ((stands apart).1.trans new)
      obtain ⟨group, stood, together⟩ := sound.launched other c'' known' before
      exact ⟨group, stood.touched touches (Nat.le_refl _) (touches.groupOf? same), together⟩
  arriving other todo new := by
    by_cases launched : ∀ todo, f.newcomer ≠ some (pid, todo)
    · obtain ⟨kept, -⟩ := stands launched
      obtain ⟨c'', known', arriving⟩ := sound.arriving other todo (kept ▸ new)
      have same : other ≠ pid := by
        rintro rfl
        exact launched todo (kept ▸ new)
      exact ⟨c'', (Function.update_of_ne same ..).trans known',
        arriving.touched touches (Nat.le_refl _) (touches.others other same)⟩
    · obtain ⟨todo', new'⟩ := Classical.not_forall_not.mp launched
      obtain ⟨c'', known', arriving⟩ := sound.arriving pid todo' new'
      obtain rfl := Option.some.inj (known.symm.trans known')
      obtain ⟨todo'', now, arriving'⟩ := arrives todo' new' arriving
      obtain ⟨rfl, rfl⟩ := Prod.mk.inj (Option.some.inj (now.symm.trans new))
      exact ⟨c', Function.update_self .., arriving'⟩

/-! ## Events -/

theorem fork (idle : f.newcomer = none) : Sound shellGroup (act shellGroup f .fork) := by
  have absent := sound.fresh f.next (Nat.le_refl _)
  have touches : Touches shellGroup f.next f.next f.roster (f.roster.fork f.next shellGroup) :=
    .fork (.inl rfl)
  have born : (f.roster.fork f.next shellGroup).member? f.next =
      some { pid := f.next, group := shellGroup, execed := false } :=
    Roster.member?_fork_self absent
  have later : f.next ≤ f.next + 1 := Nat.le_succ _
  have result : act shellGroup f .fork =
      { f with
        roster := f.roster.fork f.next shellGroup
        next := f.next + 1
        children := Function.update f.children f.next
          (some { aim := f.group, joining := .asking, ended := false, signalled := false })
        newcomer := some (f.next, .asking) } := by
    simp only [act, idle]
  rw [result]
  have base := sound.stranger sound.unborn touches later (sound.fresh_born touches)
  constructor
  · exact base.fresh
  · exact base.shell
  · intro group known
    obtain ⟨apart, taken, leader⟩ := base.owned group known
    have older : group ≠ f.next := Nat.ne_of_lt (sound.owned group known).taken
    refine ⟨apart, taken, fun other here => ?_⟩
    obtain ⟨own, present⟩ := leader other here
    exact ⟨own, (Function.update_of_ne older ..).trans_ne present⟩
  · intro pid c known launched
    have older : pid ≠ f.next := by
      rintro rfl
      exact launched _ rfl
    dsimp only at known
    rw [Function.update_of_ne older] at known
    exact base.launched pid c known (by simp [idle])
  · intro pid todo new
    obtain ⟨rfl, rfl⟩ := Prod.mk.inj (Option.some.inj new)
    refine ⟨_, Function.update_self .., rfl, rfl, Nat.ne_of_gt sound.shell, ?_, ?_, ?_, ?_⟩
    · intro old known
      exact Nat.ne_of_lt (sound.owned old known).taken
    · intro member found execed
      rw [born] at found
      obtain rfl := Option.some.inj found
      cases execed
    · rintro (⟨⟨⟩⟩ | ⟨⟨⟩⟩)
    · exact .inl ⟨by rintro ⟨⟩, by rintro ⟨⟩,
        Roster.groupOf?_eq_some_iff.mpr ⟨_, born, rfl⟩⟩

/-- The shell looks where the child is, which is launched then. -/
theorem launch (new : f.newcomer = some (pid, .looking)) :
    ∃ c group, f.children pid = some c ∧ f.place shellGroup pid .looking =
        { f with group := some group, newcomer := none } ∧
      Stands shellGroup f.next f.roster pid c group ∧
      Meant shellGroup f.next f.roster f.group pid group := by
  obtain ⟨c, known, arriving⟩ := sound.arriving pid .looking new
  obtain ⟨group, stands, meant⟩ :=
    arriving.stands fun old grouped => (sound.owned old grouped).apart
  refine ⟨c, group, known, ?_, stands, meant⟩
  simp only [place, look, stands.here, if_neg stands.apart]

/-- The child that the shell has launched is in the session's group, with all others. -/
theorem launched_child (new : f.newcomer = some (pid, .looking)) (known : f.children pid = some c)
    (stands : Stands shellGroup f.next f.roster pid c group)
    (meant : Meant shellGroup f.next f.roster f.group pid group) :
    Sound shellGroup { f with group := some group, newcomer := none } where
  fresh := sound.fresh
  shell := sound.shell
  owned := by
    rintro _ ⟨⟩
    by_cases same : f.group = some group
    · obtain ⟨apart, taken, leader⟩ := sound.owned group same
      exact ⟨apart, taken, leader⟩
    · have own : group = pid := by
        rcases meant with there | ⟨own, -⟩
        · cases grouped : f.group with
          | none => rw [there, grouped, Option.getD_none]
          | some old =>
              rw [grouped, Option.getD_some] at there
              exact absurd (there ▸ grouped) same
        · exact own
      subst own
      refine ⟨stands.apart, sound.lt_next known, fun other here => ⟨?_, ?_⟩⟩
      · rw [stands.here] at here
        exact (Option.some.inj here).symm
      · rw [known]
        exact Option.some_ne_none c
  launched other c' known' _ := by
    by_cases same : other = pid
    · subst same
      obtain rfl := Option.some.inj (known.symm.trans known')
      exact ⟨group, stands, fun _ => rfl⟩
    · obtain ⟨group', stood, together⟩ := sound.launched other c' known' (by
        intro todo new'
        rw [new] at new'
        exact same (Prod.mk.inj (Option.some.inj new')).1.symm)
      refine ⟨group', stood, fun free => ?_⟩
      rcases meant.eq_or_gone (together free) with rfl | gone
      · rfl
      · exact absurd rfl (gone.ne stood.here)
  arriving := by rintro _ _ ⟨⟩

theorem place {todo : Placing} (new : f.newcomer = some (pid, todo)) :
    Sound shellGroup (act shellGroup f .place) := by
  have step : act shellGroup f .place = f.place shellGroup pid todo := by simp only [act, new]
  rw [step]
  by_cases looks : todo = .looking
  · subst looks
    obtain ⟨c, group, known, result, stands, meant⟩ := sound.launch new
    rw [result]
    exact sound.launched_child new known stands meant
  · obtain ⟨c, known, arriving⟩ := sound.arriving pid todo new
    have result : f.place shellGroup pid todo =
        { f with
          roster := (placeNext f.group pid f.roster todo).2
          children := Function.update f.children pid (some c)
          newcomer := some (pid, (placeNext f.group pid f.roster todo).1) } := by
      rw [← known, Function.update_eq_self]
      cases todo with
      | asking => rfl
      | leading => rfl
      | looking => exact absurd rfl looks
    rw [result]
    refine sound.child known (Group.touches_placeNext _ _ _ todo) rfl (fun todo' new' _ => ?_)
      (fun launched => ?_)
    · exact ⟨_, rfl, arriving.place sound.vanished⟩
    · exact absurd new (launched todo)

theorem join : Sound shellGroup (act shellGroup f (.join pid)) := by
  simp only [act]
  cases known : f.children pid with
  | none => exact sound
  | some c =>
      dsimp only
      split
      · exact sound
      · refine sound.child known (Group.touches_joinNext _ _ _ c.joining) rfl
          (fun todo new arriving => ⟨todo, new, arriving.join sound.vanished⟩)
          (fun _ => ⟨rfl, fun group stands => stands.join⟩)

theorem exec : Sound shellGroup (act shellGroup f (.exec pid)) := by
  simp only [act]
  cases known : f.children pid with
  | none => exact sound
  | some c =>
      dsimp only
      split
      · next due =>
          have result : { f with roster := f.roster.exec pid } =
              { f with
                roster := f.roster.exec pid
                children := Function.update f.children pid (some c)
                newcomer := f.newcomer } := by
            rw [← known, Function.update_eq_self]
          rw [result]
          exact sound.child known .exec rfl
            (fun todo new arriving => ⟨todo, new, arriving.exec due.2⟩)
            (fun _ => ⟨rfl, fun group stands => stands.exec⟩)
      · exact sound

theorem exit : Sound shellGroup (act shellGroup f (.exit pid)) := by
  simp only [act]
  cases known : f.children pid with
  | none => exact sound
  | some c =>
      refine sound.child known .refl rfl (fun todo new arriving => ⟨todo, new, ?_⟩)
        (fun _ => ⟨rfl, fun group stands => ?_⟩)
      · exact { arriving with }
      · exact { stands with }

theorem fresh_reap (pid : Nat) :
    ∀ other, f.next ≤ other → (f.roster.reap pid).member? other = none := by
  intro other late
  rw [Roster.member?_reap, sound.fresh other late, ite_self]

/-- The shell has waited for a child. -/
theorem reaped (pid : Nat) (idle : f.newcomer = none) :
    Sound shellGroup
      { f with roster := f.roster.reap pid, children := Function.update f.children pid none } where
  fresh := sound.fresh_reap pid
  shell := sound.shell
  owned group grouped := by
    obtain ⟨apart, taken, leader⟩ := sound.owned group grouped
    refine ⟨apart, taken, fun other here => ?_⟩
    have same : group ≠ pid := by
      rintro rfl
      obtain ⟨member, found, -⟩ := Roster.groupOf?_eq_some_iff.mp here
      rw [Roster.member?_reap, if_pos rfl] at found
      cases found
    rw [(Touches.reap : Touches shellGroup f.next pid f.roster _).groupOf? same] at here
    obtain ⟨own, present⟩ := leader other here
    exact ⟨own, (Function.update_of_ne same ..).trans_ne present⟩
  launched other c known launched := by
    dsimp only at known
    have same : other ≠ pid := by
      rintro rfl
      rw [Function.update_self] at known
      cases known
    rw [Function.update_of_ne same] at known
    have touches : Touches shellGroup f.next pid f.roster (f.roster.reap pid) := .reap
    obtain ⟨group, stands, together⟩ := sound.launched other c known launched
    exact ⟨group, stands.touched touches (Nat.le_refl _) (touches.groupOf? same), together⟩
  arriving other todo new := by
    rw [idle] at new
    cases new

theorem reap : Sound shellGroup (act shellGroup f (.reap pid)) := by
  simp only [act]
  cases known : f.children pid with
  | none => exact sound.stranger known .reap (Nat.le_refl _) (sound.fresh_reap pid)
  | some c =>
      dsimp only
      split
      · next due => exact sound.reaped pid due.2
      · exact sound

theorem terminate : Sound shellGroup (act shellGroup f .terminate) := by
  simp only [act]
  split
  · next group idle grouped =>
      constructor
      · exact sound.fresh
      · exact sound.shell
      · rintro _ ⟨⟩
      · intro pid c known launched
        obtain ⟨c', known', rfl⟩ := Option.map_eq_some_iff.mp known
        obtain ⟨group', stands, together⟩ := sound.launched pid c' known' (by simp [idle])
        refine ⟨group', { stands with }, fun free => ?_⟩
        -- the signal has reached whoever was in the session's group
        obtain ⟨before, missed⟩ := Bool.or_eq_false_iff.mp free
        rw [grouped] at together
        obtain rfl := Option.some.inj (together before)
        have listed := Roster.mem_pidsOf stands.here
        rw [← List.contains_iff_mem, missed] at listed
        cases listed
      · intro pid todo new
        rw [idle] at new
        cases new
  · exact sound

theorem bear (parent : Nat) : Sound shellGroup (act shellGroup f (.bear parent)) := by
  have grouped : (f.roster.groupOf? parent).getD shellGroup = shellGroup ∨
      f.roster.hasGroup ((f.roster.groupOf? parent).getD shellGroup) = true := by
    cases here : f.roster.groupOf? parent with
    | none => exact .inl rfl
    | some group => exact .inr (Roster.hasGroup_of_groupOf? here)
  have touches : Touches shellGroup f.next f.next f.roster (f.roster.fork f.next _) :=
    .fork grouped
  exact sound.stranger sound.unborn touches (Nat.le_succ _) (sound.fresh_born touches)

theorem move (group : Nat) : Sound shellGroup (act shellGroup f (.move pid group)) := by
  simp only [act]
  cases known : f.children pid with
  | some c => exact sound
  | none =>
      cases moved : f.roster.setGroup .itself pid group with
      | error cause => exact sound
      | ok r' =>
          have touches : Touches shellGroup f.next pid f.roster r' := .of_setGroup moved
          refine sound.stranger known touches (Nat.le_refl _) (sound.fresh_touched touches ?_)
          obtain ⟨member, found, -⟩ := Roster.member?_of_setGroup moved
          by_contra late
          rw [sound.fresh pid (by omega)] at found
          cases found

end Sound

theorem sound_act (sound : Sound shellGroup f) (event : Event) :
    Sound shellGroup (act shellGroup f event) := by
  cases event with
  | fork =>
      cases idle : f.newcomer with
      | none => exact sound.fork idle
      | some new => simpa only [act, idle] using sound
  | place =>
      cases new : f.newcomer with
      | none => simpa only [act, new] using sound
      | some new' => exact sound.place new
  | join pid => exact sound.join
  | exec pid => exact sound.exec
  | exit pid => exact sound.exit
  | reap pid => exact sound.reap
  | terminate => exact sound.terminate
  | bear parent => exact sound.bear parent
  | move pid group => exact sound.move group

theorem sound_run (sound : Sound shellGroup f) (events : List Event) :
    Sound shellGroup (run shellGroup f events) := by
  induction events generalizing f with
  | nil => exact sound
  | cons event events ih => exact ih (sound_act sound event)

/-- The session goes from its group to another one only when that group is gone, and has none only
after it was ended. -/
theorem group_act (sound : Sound shellGroup f) (grouped : f.group = some group) (event : Event) :
    (act shellGroup f event).group = some group ∨
      (event = .terminate ∧ (act shellGroup f event).group = none) ∨
      event = .place ∧ Gone shellGroup f.next f.roster group := by
  cases event with
  | place =>
      cases new : f.newcomer with
      | none => exact .inl (by simpa only [act, new] using grouped)
      | some newcomer =>
          obtain ⟨pid, todo⟩ := newcomer
          simp only [act, new]
          cases todo with
          | asking => exact .inl grouped
          | leading => exact .inl grouped
          | looking =>
              obtain ⟨c, there, -, result, -, meant⟩ := sound.launch new
              rw [result]
              rcases meant.eq_or_gone grouped with rfl | gone
              · exact .inl rfl
              · exact .inr (.inr ⟨trivial, gone⟩)
  | terminate =>
      simp only [act]
      split
      · exact .inr (.inl ⟨trivial, rfl⟩)
      · exact .inl grouped
  | bear parent => exact .inl grouped
  | fork | join | exec | exit | reap | move =>
      left
      simp only [act]
      repeat' split
      all_goals exact grouped

theorem group_run (sound : Sound shellGroup f) (grouped : f.group = some group)
    {events : List Event} (never : Event.terminate ∉ events) :
    (run shellGroup f events).group = some group ∨
      Gone shellGroup (run shellGroup f events).next (run shellGroup f events).roster group := by
  suffices later : f.group = some group ∨ Gone shellGroup f.next f.roster group →
      (run shellGroup f events).group = some group ∨
        Gone shellGroup (run shellGroup f events).next (run shellGroup f events).roster group from
    later (.inl grouped)
  clear grouped
  intro before
  induction events generalizing f with
  | nil => exact before
  | cons event events ih =>
      rw [List.mem_cons, not_or] at never
      refine ih (sound_act sound event) never.2 ?_
      rcases before with grouped | gone
      · rcases group_act sound grouped event with kept | ⟨rfl, -⟩ | ⟨-, gone⟩
        · exact .inl kept
        · exact absurd rfl never.1
        · exact .inr (gone_act gone event)
      · exact .inr (gone_act gone event)

theorem sound_start {r : Roster} (fresh : ∀ pid, next ≤ pid → r.member? pid = none)
    (shell : shellGroup < next) : Sound shellGroup (start r next) where
  fresh := fresh
  shell := shell
  owned := by rintro _ ⟨⟩
  launched := by rintro _ _ ⟨⟩
  arriving := by rintro _ _ ⟨⟩

end PipeShell.Family
