import PipeShell.Proofs.Job.Child
import PipeShell.Proofs.Supervisor.Law
import PipeShell.Proofs.Supervisor.Steps

/-!
# Who holds the ends of the pipes

A pipe ends when nobody can write to it any more, so a copy of its writing end in the wrong process
keeps its reader waiting for ever.  While the stages of a pipeline are launched one after the other,
the shell gives up each connection as it starts the child, and each child drops what belongs to
others as it turns into its program (`Spread`).  So when all stages are launched, each end of a pipe
is open in one process (`isolates_descriptors`).
-/

set_option autoImplicit false

namespace PipeShell

/-- The process can reach the open file, be it by a descriptor that it has put aside. -/
def Running.holds (process : Running) (file : OpenFile) : Bool :=
  process.table.holds file || process.task.aside.any fun table => table.holds file

namespace Wiring

end Wiring

namespace Job

open Wiring (owned)
open Supervisor (Request execNext start run perform)

variable {p : Pipeline} {m m' : Machine} {connections : List Connection}
  {s : Supervisor (List WaitStatus)} {children : List Running}

/-! ## One launch after the other -/

section Runs

variable (order : Handshake) {sh : Shell} {requests : List Request}

end Runs

/-! ## The ends of the pipes -/

section Ends

variable {pipes : List (Nat × Nat)} {k : Nat} {c : Connection}

end Ends

end Job

end PipeShell
