import PipeShell.Machine

/-!
# Reading and writing

A pipe holds a bounded number of bytes.  Reading an empty one waits while some
process can still write to it, and ends when none can; writing to a full one
waits while some process can still read it, and ends the writer when none can.
-/

set_option autoImplicit false

namespace PipeShell

inductive ReadResult where
  | data (data : ByteArray)
  | ended
  | waiting
  | failed (cause : Errno)

inductive WriteResult where
  | wrote (count : Nat)
  | waiting
  /-- Nobody can read what is written. -/
  | broken
  | failed (cause : Errno)

namespace Machine

/-- The bytes that a pipe can hold. -/
def pipeCapacity : Nat := 65536

/-- Some process holds this open file. -/
def isHeld (m : Machine) (file : OpenFile) : Bool :=
  m.table.holds file || m.running.any fun process =>
    process.table.holds file || process.task.aside.any fun table => table.holds file

def zeros (count : Nat) : ByteArray := ⟨Array.replicate count 0⟩

/-- Takes at most `most` bytes from an open file. -/
def readFrom (m : Machine) (file : OpenFile) (most : Nat) : ReadResult × Machine :=
  match file with
  | .standard .input => (.ended, m)
  | .pipe id .reading =>
    let held := m.pipes.getD id .empty
    if held.size = 0 then
      (if m.isHeld (.pipe id .writing) then .waiting else .ended, m)
    else
      let taken := min most held.size
      (.data (held.extract 0 taken),
        { m with pipes := m.pipes.setIfInBounds id (held.extract taken held.size) })
  | .node id .reading cursor =>
    match m.files.node? id with
    | some (.directory ..) => (.failed .isDirectory, m)
    | some (.device .zero) | some (.device .full) => (.data (zeros most), m)
    | _ =>
      let content := m.files.content id
      let place := m.cursors.getD cursor 0
      if content.size ≤ place then (.ended, m)
      else
        let taken := min most (content.size - place)
        (.data (content.extract place (place + taken)),
          { m with cursors := m.cursors.setIfInBounds cursor (place + taken) })
  | _ => (.failed .badDescriptor, m)

/-- Lets the next reader of a file have the last `count` bytes again.  What came through a pipe is
gone. -/
def putBack (m : Machine) (file : OpenFile) (count : Nat) : Machine :=
  match file with
  | .node _ .reading cursor =>
    { m with cursors := m.cursors.setIfInBounds cursor (m.cursors.getD cursor 0 - count) }
  | _ => m

/-- Gives as much of the data to an open file as it takes now. -/
def writeTo (m : Machine) (file : OpenFile) (data : ByteArray) : WriteResult × Machine :=
  match file with
  | .standard .output => (.wrote data.size, { m with output := m.output ++ data })
  | .standard .error => (.wrote data.size, { m with errors := m.errors ++ data })
  | .pipe id .writing =>
    if !m.isHeld (.pipe id .reading) then (.broken, m)
    else
      let held := m.pipes.getD id .empty
      let room := pipeCapacity - held.size
      if room = 0 && data.size ≠ 0 then (.waiting, m)
      else
        let taken := min room data.size
        (.wrote taken,
          { m with pipes := m.pipes.setIfInBounds id (held ++ data.extract 0 taken) })
  | .node id .writing cursor =>
    match m.files.node? id with
    | some (.device .null) | some (.device .zero) => (.wrote data.size, m)
    | some (.device .full) => (if data.size = 0 then .wrote 0 else .failed .noSpace, m)
    | _ =>
      let place := m.cursors.getD cursor 0
      (.wrote data.size,
        { m with
          files := m.files.write id place data
          cursors := m.cursors.setIfInBounds cursor (place + data.size) })
  | _ => (.failed .badDescriptor, m)

/-- The number of bytes up to and with the first line end that can be read now. -/
def lineAhead (m : Machine) (file : OpenFile) : Nat :=
  let (data, place) := match file with
    | .pipe id .reading => (m.pipes.getD id .empty, 0)
    | .node id .reading cursor => (m.files.content id, m.cursors.getD cursor 0)
    | _ => (.empty, 0)
  (Text.lineExtent (data.extract place data.size) 1).1

end Machine

end PipeShell
