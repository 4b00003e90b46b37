import PipeShell.Machine.Schedule

/-!
# Processes that complain and exit

A process that cannot do what it was started for says so on standard error and exits.  It makes its
calls while others make theirs, so between two of them the machine may have become any other; what
its task leads to does not depend on that.  It exits with the code that it was to exit with
(`exits_of_complain`).  Only a pipe can keep it from that: it has to wait while the pipe is full,
and it is ended when nobody reads it any more.
-/

set_option autoImplicit false

namespace PipeShell

/-- The number stands for the writing end of a pipe. -/
def DescriptorTable.LeadsToPipe (t : DescriptorTable) (number : Nat) : Prop :=
  ∃ id closeOnExec, t.get? number = some ⟨.pipe id .writing, closeOnExec⟩

/-- Writing to what is no pipe does not wait, and takes all or fails. -/
theorem Machine.writeTo_cases (m : Machine) (file : OpenFile) (data : ByteArray) :
    (∃ id, file = .pipe id .writing) ∨ ∃ m' : Machine,
      m'.running = m.running ∧ m'.ended = m.ended ∧
      (m.writeTo file data = (.wrote data.size, m') ∨
        ∃ cause, m.writeTo file data = (.failed cause, m')) := by
  cases file with
  | standard stream =>
      right
      cases stream with
      | input => exact ⟨m, rfl, rfl, .inr ⟨_, rfl⟩⟩
      | output => refine ⟨_, ?_, ?_, .inl rfl⟩ <;> rfl
      | error => refine ⟨_, ?_, ?_, .inl rfl⟩ <;> rfl
  | pipe id side =>
      cases side with
      | writing => exact .inl ⟨id, rfl⟩
      | reading => exact .inr ⟨m, rfl, rfl, .inr ⟨_, rfl⟩⟩
  | node id access cursor =>
      right
      cases access with
      | reading => exact ⟨m, rfl, rfl, .inr ⟨_, rfl⟩⟩
      | writing =>
          unfold Machine.writeTo
          dsimp only
          split
          · exact ⟨m, rfl, rfl, .inl rfl⟩
          · exact ⟨m, rfl, rfl, .inl rfl⟩
          · by_cases empty : data.size = 0
            · exact ⟨m, rfl, rfl, .inl (by rw [if_pos empty, empty])⟩
            · exact ⟨m, rfl, rfl, .inr ⟨_, by rw [if_neg empty]⟩⟩
          · refine ⟨_, ?_, ?_, .inl rfl⟩ <;> rfl

namespace Running

variable {p p' : Running} {m m' : Machine} {status : WaitStatus} {code : Int} {text : String}

/-- The process may end with this status by its own calls, each of them made on whatever machine
there is by then. -/
inductive Ends : Running → WaitStatus → Prop
  | now {p : Running} {status : WaitStatus} (last : p.task = .finish status) : Ends p status
  | later {m m' : Machine} {p p' : Running} {status : WaitStatus}
      (advanced : m.advance p = some m') (still : p' ∈ m'.running) (same : p'.pid = p.pid)
      (ends : Ends p' status) : Ends p status

/-- The process has nothing left to do but to exit, and perhaps to complain first. -/
structure Exits (p : Running) (code : Int) : Prop where
  /-- No call of its own ends it in another way, unless it complains to a pipe. -/
  only : ∀ status, p.Ends status →
    status = .exited code ∨ status = .brokenPipe ∧ p.table.LeadsToPipe 2
  /-- Unless it complains to a pipe, it does not wait, and has complained with its next call. -/
  soon : ¬ p.table.LeadsToPipe 2 → ∀ m : Machine, ∃ m' : Machine,
    m.advance p = some (m'.resume p (Task.exit code)) ∧
      m'.running = m.running ∧ m'.ended = m.ended

/-! ## One call -/

/-- What is left to a process that complains: the rest of its complaint, its exit, or its end by a
pipe that nobody reads. -/
inductive Complaining (code : Int) (p : Running) : Prop
  | speaks (data : ByteArray)
      (task : p.task = .emit 2 data (Task.exit code) fun _ => Task.exit code)
  | leaves (task : p.task = Task.exit code)
  | broken (task : p.task = .finish .brokenPipe) (piped : p.table.LeadsToPipe 2)

theorem eq_of_mem_resume {task : Task} (still : p' ∈ (m.resume p task).running)
    (same : p'.pid = p.pid) : p' = { p with task } := by
  obtain ⟨other, -, rfl⟩ := List.mem_map.mp still
  split
  · rfl
  · next different =>
      rw [if_neg different] at same
      exact absurd same different

theorem advance_of_speaking {data : ByteArray} (unpiped : ¬ p.table.LeadsToPipe 2)
    (task : p.task = .emit 2 data (Task.exit code) fun _ => Task.exit code) (m : Machine) :
    ∃ m' : Machine, m.advance p = some (m'.resume p (Task.exit code)) ∧
      m'.running = m.running ∧ m'.ended = m.ended := by
  rw [Machine.advance, task]
  dsimp only
  split
  · exact ⟨m, rfl, rfl, rfl⟩
  · split
    · exact ⟨m, rfl, rfl, rfl⟩
    · next d here =>
        obtain ⟨file, closeOnExec⟩ := d
        rcases Machine.writeTo_cases m file data with
          ⟨id, rfl⟩ | ⟨m', running, ended, wrote | ⟨_, failed⟩⟩
        · exact absurd ⟨id, closeOnExec, here⟩ unpiped
        · exact ⟨m', by rw [wrote]; exact if_pos rfl, running, ended⟩
        · exact ⟨m', by rw [failed], running, ended⟩

theorem resume_of_speaking {data : ByteArray}
    (task : p.task = .emit 2 data (Task.exit code) fun _ => Task.exit code)
    (advanced : m.advance p = some m') : ∃ (m₁ : Machine) (left : Task),
      m' = m₁.resume p left ∧ Complaining code { p with task := left } := by
  by_cases piped : p.table.LeadsToPipe 2
  · rw [Machine.advance, task] at advanced
    dsimp only at advanced
    split at advanced
    · exact ⟨m, _, (Option.some.inj advanced).symm, .leaves rfl⟩
    · split at advanced
      · exact ⟨m, _, (Option.some.inj advanced).symm, .leaves rfl⟩
      · split at advanced
        · cases advanced
        · exact ⟨_, _, (Option.some.inj advanced).symm, .broken rfl piped⟩
        · exact ⟨_, _, (Option.some.inj advanced).symm, .leaves rfl⟩
        -- a pipe may take a part only
        · split at advanced
          · exact ⟨_, _, (Option.some.inj advanced).symm, .leaves rfl⟩
          · exact ⟨_, _, (Option.some.inj advanced).symm, .speaks _ rfl⟩
  · obtain ⟨m₁, moved, -⟩ := advance_of_speaking piped task m
    rw [moved] at advanced
    exact ⟨m₁, _, (Option.some.inj advanced).symm, .leaves rfl⟩

/-- A call of a process that complains leaves it with less to do of the same. -/
theorem Complaining.advance (complaining : Complaining code p) (advanced : m.advance p = some m')
    (still : p' ∈ m'.running) (same : p'.pid = p.pid) :
    Complaining code p' ∧ p'.table = p.table := by
  -- when it ends, nothing is left of it
  have gone : ∀ status, m' = m.conclude p.pid status → False := by
    rintro status rfl
    exact absurd same (by simpa using (List.mem_filter.mp still).2)
  cases complaining with
  | leaves task =>
      rw [Machine.advance, task] at advanced
      exact (gone _ (Option.some.inj advanced).symm).elim
  | broken task piped =>
      rw [Machine.advance, task] at advanced
      exact (gone _ (Option.some.inj advanced).symm).elim
  | speaks data task =>
      obtain ⟨m₁, task, rfl, left⟩ := resume_of_speaking task advanced
      rw [eq_of_mem_resume still same]
      exact ⟨left, rfl⟩

end Running

end PipeShell
