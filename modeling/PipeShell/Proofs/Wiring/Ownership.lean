import PipeShell.Proofs.Machine.Known
import PipeShell.Proofs.Wiring.Connected

/-!
# Who owns the descriptors of a pipeline

At every moment of wiring each descriptor that was opened has one owner: a connection that is
finished, the side of a stage that waits for the other one, or the list of ends that are left.  A
step that fails closes what its owners have.  So wiring any pipeline, coherent or not, either fails
and leaves the descriptors as they were, or leaves just those besides that the connections own
(`wire_keeps_accounts`), whichever call the machine refuses.
-/

set_option autoImplicit false

namespace PipeShell.Wiring

open Machine (Gains Rewired rewired_closeAll)

variable {m m' m₀ : Machine} {ends ends' : List PipeEnds} {held : List Nat} {stage number : Nat}
  {channel : Channel} {file : Option String} {e : Endpoint}

/-! ## Ends changing hands -/

/-- The descriptors of ends that no stage has taken. -/
def leftover (ends : List PipeEnds) : List Nat :=
  ends.flatMap PipeEnds.owned

/-- The descriptors of connections. -/
def owned (connections : List Connection) : List Nat :=
  connections.flatMap Connection.owned

theorem owned_cons (c : Connection) (connections : List Connection) :
    owned (c :: connections) = c.owned ++ owned connections := List.flatMap_cons

/-- The sides that are not the shell's own streams, by their numbers. -/
theorem numbers_sides (connections : List Connection) :
    ((connections.flatMap sides).filter fun e => !e.isInherited).map Endpoint.number =
      owned connections := by
  induction connections with
  | nil => rfl
  | cons c connections ih =>
      obtain ⟨input, output⟩ := c
      rw [List.flatMap_cons, List.filter_append, List.map_append, ih, owned_cons]
      cases input <;> cases output <;> rfl

theorem mem_owned_iff {connections : List Connection} :
    number ∈ owned connections ↔
      ∃ e ∈ connections.flatMap sides, e.isInherited = false ∧ e.number = number := by
  rw [← numbers_sides]
  simp only [List.mem_map, List.mem_filter, Bool.not_eq_true', and_assoc]

/-- An end that is taken from its place is not left any more, and all others are. -/
theorem perm_leftover_set {place : Nat} {before after : PipeEnds}
    (here : ends[place]? = some before) (taken : (number :: after.owned).Perm before.owned) :
    (number :: leftover (ends.set place after)).Perm (leftover ends) := by
  induction ends generalizing place with
  | nil => cases here
  | cons first rest ih =>
      cases place with
      | zero =>
          cases here
          exact taken.append_right (leftover rest)
      | succ place => exact List.perm_middle.symm.trans ((ih here).append_left first.owned)

theorem perm_of_takeReader (took : takeReader stage ends = .ok (number, ends')) :
    (number :: leftover ends').Perm (leftover ends) := by
  unfold takeReader at took
  split at took
  · cases took
  · split at took
    · next reader writer here =>
        cases took
        exact perm_leftover_set here (.refl _)
    · cases took

theorem perm_of_takeWriter (took : takeWriter stage ends = .ok (number, ends')) :
    (number :: leftover ends').Perm (leftover ends) := by
  unfold takeWriter at took
  split at took
  · next reader writer here =>
      cases took
      exact perm_leftover_set here List.perm_middle.symm
  · cases took

/-! ## One side of a stage -/

/-- A side that is connected owns its descriptor, be it an end that was left or a new file. -/
theorem gains_of_connectInput (gains : Gains m₀ m (leftover ends ++ held))
    (connected : connectInput file stage channel ends m = (.ok (e, ends'), m')) :
    Gains m₀ m' (e.owned ++ (leftover ends' ++ held)) := by
  unfold connectInput at connected
  split at connected
  · cases connected
    exact gains
  · split at connected
    · cases connected
    · split at connected
      · cases connected
      · next opened =>
          cases connected
          exact gains.trans (Machine.gains_of_openInput opened)
  · split at connected
    · cases connected
    · next took =>
        cases connected
        exact gains.perm ((perm_of_takeReader took).symm.append_right held)

theorem gains_of_connectOutput (gains : Gains m₀ m (leftover ends ++ held))
    (connected : connectOutput file stage channel ends m = (.ok (e, ends'), m')) :
    Gains m₀ m' (e.owned ++ (leftover ends' ++ held)) := by
  unfold connectOutput at connected
  split at connected
  · cases connected
    exact gains
  · split at connected
    · cases connected
    · split at connected
      · cases connected
      · next opened =>
          cases connected
          exact gains.trans (Machine.gains_of_openOutput opened)
  · split at connected
    · cases connected
    · next took =>
        cases connected
        exact gains.perm ((perm_of_takeWriter took).symm.append_right held)

theorem table_of_connectInput_error {cause : ResourceError}
    (failed : connectInput file stage channel ends m = (.error cause, m')) :
    m'.table = m.table := by
  unfold connectInput at failed
  split at failed
  · cases failed
  · split at failed
    · cases failed
      rfl
    · split at failed
      · next refused =>
          cases failed
          obtain ⟨faults, rfl⟩ := Machine.eq_of_openInput_error refused
          rfl
      · cases failed
  · split at failed
    · cases failed
      rfl
    · cases failed

theorem table_of_connectOutput_error {cause : ResourceError}
    (failed : connectOutput file stage channel ends m = (.error cause, m')) :
    m'.table = m.table := by
  unfold connectOutput at failed
  split at failed
  · cases failed
  · split at failed
    · cases failed
      rfl
    · split at failed
      · next refused =>
          cases failed
          obtain ⟨faults, rfl⟩ := Machine.eq_of_openOutput_error refused
          rfl
      · cases failed
  · split at failed
    · cases failed
      rfl
    · cases failed

/-! ## All stages -/

/-- What the outcome of wiring owes to a machine that it found: nothing more than was held before,
and what the connections own, if there are any. -/
def Settled (m₀ : Machine) (held : List Nat) :
    Except ResourceError (List Connection) × Machine → Prop
  | (.error _, m) => Gains m₀ m held
  | (.ok connections, m) => Gains m₀ m (owned connections ++ held)

theorem settled_connectAll {inputFile outputFile : Option String} {first : Nat}
    {stages : List Stage} (gains : Gains m₀ m (leftover ends ++ held)) :
    Settled m₀ held (connectAll inputFile outputFile first stages ends m) := by
  induction stages generalizing first ends m held with
  | nil => exact gains.closeAll
  | cons stage rest ih =>
      rw [connectAll]
      split
      · next cause m₁ failed =>
          exact (gains.congr (table_of_connectInput_error failed)).closeAll
      · next input ends₁ m₁ inputConnected =>
          have inputGains := gains_of_connectInput gains inputConnected
          split
          · next cause m₂ failed =>
              have before := inputGains.congr (table_of_connectOutput_error failed)
              rw [← List.append_assoc] at before
              exact before.closeAll
          · next output ends₂ m₂ outputConnected =>
              -- the side that waits is held while the other one is connected
              have aside : (input.owned ++ (leftover ends₁ ++ held)).Perm
                  (leftover ends₁ ++ (input.owned ++ held)) := List.perm_append_comm_assoc ..
              have both := gains_of_connectOutput (inputGains.perm aside) outputConnected
              have stageHeld : (output.owned ++ (leftover ends₂ ++ (input.owned ++ held))).Perm
                  (leftover ends₂ ++ ((Connection.mk input output).owned ++ held)) := by
                refine (List.perm_append_comm_assoc ..).trans (List.Perm.append_left _ ?_)
                rw [Connection.owned, List.append_assoc]
                exact List.perm_append_comm_assoc ..
              have settled : Settled m₀ ((Connection.mk input output).owned ++ held)
                  (connectAll inputFile outputFile (first + 1) rest ends₂ m₂) :=
                ih (both.perm stageHeld)
              split
              · next cause m₃ outcome =>
                  rw [outcome] at settled
                  exact Gains.closeAll settled
              · next connections m₃ outcome =>
                  rw [outcome] at settled
                  refine Gains.perm settled ?_
                  rw [owned_cons, List.append_assoc]
                  exact List.perm_append_comm_assoc ..

/-- Pipes are made, all of them or none. -/
theorem gains_of_allocate {n : Nat} {result : Except Errno (List PipeEnds)}
    (allocated : allocate n m = (result, m')) :
    Gains m m' ((result.map leftover).toOption.getD []) := by
  induction n generalizing m m' result with
  | zero =>
      cases allocated
      exact .refl m
  | succ n ih =>
      rw [allocate] at allocated
      split at allocated
      · next cause m₁ refused =>
          cases allocated
          obtain ⟨faults, rfl⟩ := Machine.eq_of_openPipe_error refused
          exact (Gains.refl m).congr rfl
      · next reader writer m₁ opened =>
          have pipe := Machine.gains_of_openPipe opened
          split at allocated
          · next cause m₂ failed =>
              cases allocated
              have both := pipe.trans (ih failed)
              exact (both.perm (List.perm_append_comm ..)).closeAll
          · next rest m₂ others =>
              cases allocated
              exact (pipe.trans (ih others)).perm List.perm_append_comm

theorem settled_wire (p : Pipeline) (m : Machine) : Settled m [] (wire p m) := by
  unfold wire
  split
  · next cause m₁ failed => exact gains_of_allocate failed
  · next ends m₁ allocated =>
      have gains := gains_of_allocate allocated
      rw [← List.append_nil ((Except.map _ _).toOption.getD [])] at gains
      exact settled_connectAll gains

theorem gains_of_wire {p : Pipeline} {connections : List Connection}
    (wired : wire p m = (.ok connections, m')) : Gains m m' (owned connections) := by
  have settled := settled_wire p m
  rw [wired, Settled, List.append_nil] at settled
  exact settled

/-! ## What wiring leaves alone -/

theorem rewired_allocate {n : Nat} {result : Except Errno (List PipeEnds)}
    (called : allocate n m = (result, m')) : Rewired m m' := by
  induction n generalizing m m' result with
  | zero =>
      cases called
      exact .refl m
  | succ n ih =>
      rw [allocate] at called
      split at called
      · next refused =>
          cases called
          exact Machine.rewired_openPipe refused
      · next opened =>
          have pipe := Machine.rewired_openPipe opened
          split at called
          · next failed =>
              cases called
              exact (pipe.trans (ih failed)).trans (rewired_closeAll ..)
          · next others =>
              cases called
              exact pipe.trans (ih others)

theorem rewired_connectInput {result : Except ResourceError (Endpoint × List PipeEnds)}
    (called : connectInput file stage channel ends m = (result, m')) : Rewired m m' := by
  unfold connectInput at called
  split at called
  · cases called
    exact .refl m
  · split at called
    · cases called
      exact .refl m
    · split at called <;> next outcome =>
        cases called
        exact Machine.rewired_openInput outcome
  · split at called <;> cases called <;> exact .refl m

theorem rewired_connectOutput {result : Except ResourceError (Endpoint × List PipeEnds)}
    (called : connectOutput file stage channel ends m = (result, m')) : Rewired m m' := by
  unfold connectOutput at called
  split at called
  · cases called
    exact .refl m
  · split at called
    · cases called
      exact .refl m
    · split at called <;> next outcome =>
        cases called
        exact Machine.rewired_openOutput outcome
  · split at called <;> cases called <;> exact .refl m

theorem rewired_connectAll {inputFile outputFile : Option String} {first : Nat}
    {stages : List Stage} {result : Except ResourceError (List Connection)}
    (called : connectAll inputFile outputFile first stages ends m = (result, m')) :
    Rewired m m' := by
  induction stages generalizing first ends m m' result with
  | nil =>
      cases called
      exact rewired_closeAll ..
  | cons stage rest ih =>
      rw [connectAll] at called
      split at called
      · next failed =>
          cases called
          exact (rewired_connectInput failed).trans (rewired_closeAll ..)
      · next input =>
          have before := rewired_connectInput input
          split at called
          · next failed =>
              cases called
              exact (before.trans (rewired_connectOutput failed)).trans (rewired_closeAll ..)
          · next output =>
              have both := before.trans (rewired_connectOutput output)
              split at called
              · next failed =>
                  cases called
                  exact (both.trans (ih failed)).trans (rewired_closeAll ..)
              · next others =>
                  cases called
                  exact both.trans (ih others)

/-- Whether it succeeds or not, wiring starts and ends no process and forgets no file. -/
theorem rewired_wire {p : Pipeline} {result : Except ResourceError (List Connection)}
    (called : wire p m = (result, m')) : Rewired m m' := by
  unfold wire at called
  split at called
  · next failed =>
      cases called
      exact rewired_allocate failed
  · next allocated =>
      exact (rewired_allocate allocated).trans (rewired_connectAll called)

/-! ## The account -/

/-- Whichever call the machine refuses, a pipeline that cannot be wired leaves the descriptors as
they were.  One that is wired leaves those besides that its connections own, each in one place; an
end of a pipe that no stage asks for is closed again. -/
theorem wire_keeps_accounts (p : Pipeline) (m : Machine) :
    (∀ cause m', wire p m = (.error cause, m') →
      ∀ number, m'.table.get? number = m.table.get? number) ∧
    ∀ connections m', wire p m = (.ok connections, m') →
      (((connections.flatMap sides).filter fun e => !e.isInherited).map Endpoint.number).Nodup ∧
      (∀ number, m.table.get? number = none ∧ m'.table.get? number ≠ none ↔
        ∃ e ∈ connections.flatMap sides, e.isInherited = false ∧ e.number = number) ∧
      (∀ number, m.table.get? number ≠ none → m'.table.get? number = m.table.get? number) ∧
      ∀ ends m₁, allocate p.pipeCount m = (.ok ends, m₁) → ∀ number ∈ leftover ends,
        (∀ e ∈ connections.flatMap sides, e.isInherited = false → e.number ≠ number) →
          m'.table.get? number = none := by
  constructor
  · intro cause m' failed
    have settled := settled_wire p m
    rw [failed] at settled
    exact fun number => Gains.rest settled number List.not_mem_nil
  · intro connections m' wired
    have gains := gains_of_wire wired
    refine ⟨?_, ?_, ?_, ?_⟩
    · rw [numbers_sides]
      exact gains.distinct
    · intro number
      rw [← mem_owned_iff, gains.mem_iff]
    · intro number taken
      exact gains.rest number fun member => taken (gains.free number member)
    · intro ends m₁ allocated number left unwanted
      have free := (gains_of_allocate allocated).free number left
      rw [gains.rest number, free]
      intro member
      obtain ⟨e, side, lost, same⟩ := mem_owned_iff.mp member
      exact unwanted e side lost same

end PipeShell.Wiring
