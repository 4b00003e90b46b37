import PipeShell.Launcher

/-!
# Rehearsals

A rehearsal goes through a pipeline without starting anything.  Its launcher
notes what each stage would have been given and makes up how the processes end.
One launch can be made to fail.
-/

set_option autoImplicit false

namespace PipeShell

/-- One side of a stage as it was when the stage was launched. -/
structure SideRecord where
  endpoint : Endpoint
  /-- What the descriptor stood for. -/
  file : Option OpenFile
  deriving DecidableEq

structure LaunchRecord where
  name : String
  argv : List String
  input : SideRecord
  output : SideRecord
  /-- What a builtin printed. -/
  printed : Option Bytes
  deriving DecidableEq

structure Rehearsal where
  /-- The number of the launch that fails. -/
  failAt : Option Nat
  /-- What waiting gives, the first time and so on; after that every process has exited with 0. -/
  answers : List (Except Errno WaitStatus)
  launched : List LaunchRecord
  /-- The numbers of the launches that were waited for. -/
  waited : List Nat

namespace Rehearsal

def start (failAt : Option Nat) (answers : List (Except Errno WaitStatus)) : Rehearsal :=
  { failAt, answers, launched := [], waited := [] }

/-- The process number of the first launch. -/
def firstPid : Nat := 1000

def note (m : Machine) (endpoint : Endpoint) : SideRecord :=
  { endpoint, file := (m.table.get? endpoint.number).map Descriptor.file }

/-- Runs a builtin stage, which prints into the record. -/
def runBuiltin (stage : Stage) (record : LaunchRecord) (sh : Shell) (r : Rehearsal) :
    Except ShellError Launched × (Shell × Rehearsal) :=
  match Builtin.ofName? stage.name with
  | none =>
    (.error (.builtin (.notBuiltin stage.name)),
      (sh, { r with launched := r.launched ++ [record] }))
  | some b =>
    let (outcome, sink, sh) := b.run stage.argv {} sh
    let record := { record with printed := some sink.written }
    (outcome.result.map .builtin, (sh, { r with launched := r.launched ++ [record] }))

def launcher : Launcher Rehearsal where
  launch stage c := fun (sh, r) =>
    let record : LaunchRecord :=
      { name := stage.name
        argv := stage.argv
        input := note sh.machine c.input
        output := note sh.machine c.output
        printed := none }
    let sh := sh.disconnect c
    let index := r.launched.length
    if r.failAt = some index then
      (.error (.resource (.fork stage.name .tryAgain)), (sh, r))
    else if stage.isBuiltin then runBuiltin stage record sh r
    else
      (.ok (.process { pid := firstPid + index, program := stage.name }),
        (sh, { r with launched := r.launched ++ [record] }))
  wait handle := fun (sh, r) =>
    let answer := r.answers[r.waited.length]?.getD (.ok (.exited 0))
    (answer, (sh, { r with waited := r.waited ++ [handle.pid - firstPid] }))

end Rehearsal

end PipeShell
