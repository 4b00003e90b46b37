import PipeShell.Job.Launch
import PipeShell.Proofs.Wiring.Ownership

/-!
# The child of a stage

A child begins with all descriptors of the shell: those that the shell has always had, and those of
the connections that are left.  Installing its own connection needs two of the latter and closes
them; turning into a program drops the others, since all of them are marked so.  What remains is the
connection on the two standard streams and what the shell had before the pipeline was wired
(`isolated_childTable`).
-/

set_option autoImplicit false

namespace PipeShell.Job

variable {m m' : Machine} {all given left : List Nat} {t t' : DescriptorTable}
  {e : Endpoint} {c : Connection} {target : Nat}

/-! ## Installing -/

/-- A child that is started is one process more; no other call starts or ends one.  In any case the
shell closes the connection. -/
theorem spawn_cases (order : Handshake) (stage : Stage) (c : Connection) (sh : Shell) :
    ∃ result after, spawn order stage c sh = (result, after) ∧
      sh.machine.Grows after.machine ∧
      (∀ number, after.machine.table.get? number =
        if number ∈ c.owned then none else sh.machine.table.get? number) ∧
      ((∃ cause, result = .error cause ∧ after.machine.running = sh.machine.running) ∨
        ∃ now paths pid, now.table = sh.machine.table ∧
          result = .ok { pid, program := stage.name } ∧
          after.machine.running = sh.machine.running ++ [child now stage c paths pid]) := by
  unfold spawn
  split
  · next cause refused =>
      exact ⟨_, _, rfl, Machine.grows_closeAll rfl rfl c.owned,
        Machine.get?_closeAll sh.machine c.owned,
        Or.inl ⟨cause, rfl, (Machine.rewired_closeAll sh.machine c.owned).running⟩⟩
  · next paths planned =>
      split
      · next fault machine looked =>
          obtain rfl := Machine.nextFault_snd looked
          exact ⟨_, _, rfl, by apply Machine.grows_closeAll <;> rfl,
            Machine.get?_closeAll _ c.owned,
            Or.inl ⟨_, rfl, (Machine.rewired_closeAll _ c.owned).running⟩⟩
      · next machine looked =>
          obtain rfl := Machine.nextFault_snd looked
          refine ⟨_, _, rfl, ?_, Machine.get?_closeAll _ c.owned,
            Or.inr ⟨{ sh.machine with faults := sh.machine.faults.tail }, paths, _, rfl, rfl, ?_⟩⟩
          · apply Machine.grows_closeAll <;> rfl
          · exact (Machine.rewired_closeAll _ c.owned).running

end PipeShell.Job
