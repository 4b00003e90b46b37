import PipeShell.Machine
import PipeShell.Pipeline

/-!
# Wiring a pipeline

Wiring gives every stage a descriptor for its input and one for its output.
All pipes are made first, one between each two neighbours, and then the files
are opened in the order of the stages, input before output.

Each descriptor has one owner: an end that no stage has taken belongs to the
list of `PipeEnds`, a taken one or a file to the `Endpoint` that holds it.  A
step that fails closes what it owns, so after a failed `wire` the shell has the
descriptors it had before.
-/

set_option autoImplicit false

namespace PipeShell

/-- One side of a stage. -/
inductive Endpoint where
  | stdin
  | stdout
  | pipe (number : Nat)
  | file (number : Nat)
  deriving DecidableEq, Repr

namespace Endpoint

def number : Endpoint → Nat
  | stdin => 0
  | stdout => 1
  | pipe number => number
  | file number => number

/-- A child has the shell's own streams already. -/
def isInherited : Endpoint → Bool
  | stdin => true
  | stdout => true
  | pipe _ => false
  | file _ => false

/-- The descriptors that go away with the endpoint. -/
def owned : Endpoint → List Nat
  | stdin => []
  | stdout => []
  | pipe number => [number]
  | file number => [number]

end Endpoint

structure Connection where
  input : Endpoint
  output : Endpoint
  deriving DecidableEq, Repr

def Connection.owned (c : Connection) : List Nat :=
  c.input.owned ++ c.output.owned

/-- The ends of a pipe that no stage has taken. -/
structure PipeEnds where
  reader : Option Nat
  writer : Option Nat
  deriving DecidableEq, Repr

def PipeEnds.owned (ends : PipeEnds) : List Nat :=
  ends.reader.toList ++ ends.writer.toList

namespace Machine

/-- Closes what a connection owns. -/
def disconnect (m : Machine) (c : Connection) : Machine :=
  m.closeAll c.owned

end Machine

namespace Wiring

/-- Makes pipes, all of them or none. -/
def allocate : Nat → Machine → Except Errno (List PipeEnds) × Machine
  | 0, m => (.ok [], m)
  | n + 1, m =>
    match m.openPipe with
    | (.error cause, m) => (.error cause, m)
    | (.ok (reader, writer), m) =>
      match allocate n m with
      | (.error cause, m) => (.error cause, m.closeAll [reader, writer])
      | (.ok rest, m) => (.ok ({ reader := some reader, writer := some writer } :: rest), m)

/-- The reading end of the pipe before a stage, and the ends that are left. -/
def takeReader (stage : Nat) (ends : List PipeEnds) :
    Except ResourceError (Nat × List PipeEnds) :=
  match stage with
  | 0 => .error (.missingPipe 0 (-1))
  | before + 1 =>
    match ends[before]? with
    | some { reader := some number, writer } =>
      .ok (number, ends.set before { reader := none, writer })
    | _ => .error (.missingPipe stage before)

/-- The writing end of the pipe behind a stage, and the ends that are left. -/
def takeWriter (stage : Nat) (ends : List PipeEnds) :
    Except ResourceError (Nat × List PipeEnds) :=
  match ends[stage]? with
  | some { reader, writer := some number } =>
    .ok (number, ends.set stage { reader, writer := none })
  | _ => .error (.missingPipe stage stage)

/-- Connects the input of a stage. -/
def connectInput (file : Option String) (stage : Nat) (channel : Channel) (ends : List PipeEnds)
    (m : Machine) : Except ResourceError (Endpoint × List PipeEnds) × Machine :=
  match channel with
  | .stdio => (.ok (.stdin, ends), m)
  | .file =>
    match file with
    | none => (.error (.missingFile stage), m)
    | some path =>
      match m.openInput path with
      | (.error cause, m) => (.error (.openInput path cause), m)
      | (.ok number, m) => (.ok (.file number, ends), m)
  | .pipe =>
    match takeReader stage ends with
    | .error cause => (.error cause, m)
    | .ok (number, ends) => (.ok (.pipe number, ends), m)

/-- Connects the output of a stage. -/
def connectOutput (file : Option String) (stage : Nat) (channel : Channel) (ends : List PipeEnds)
    (m : Machine) : Except ResourceError (Endpoint × List PipeEnds) × Machine :=
  match channel with
  | .stdio => (.ok (.stdout, ends), m)
  | .file =>
    match file with
    | none => (.error (.missingFile stage), m)
    | some path =>
      match m.openOutput path with
      | (.error cause, m) => (.error (.openOutput path cause), m)
      | (.ok number, m) => (.ok (.file number, ends), m)
  | .pipe =>
    match takeWriter stage ends with
    | .error cause => (.error cause, m)
    | .ok (number, ends) => (.ok (.pipe number, ends), m)

/-- Connects stages, the first of which has number `first`.  Ends that none of them takes are
closed. -/
def connectAll (inputFile outputFile : Option String) (first : Nat) :
    List Stage → List PipeEnds → Machine → Except ResourceError (List Connection) × Machine
  | [], ends, m => (.ok [], m.closeAll (ends.flatMap PipeEnds.owned))
  | stage :: rest, ends, m =>
    match connectInput inputFile first stage.input ends m with
    | (.error cause, m) => (.error cause, m.closeAll (ends.flatMap PipeEnds.owned))
    | (.ok (input, ends), m) =>
      match connectOutput outputFile first stage.output ends m with
      | (.error cause, m) =>
        (.error cause, m.closeAll (input.owned ++ ends.flatMap PipeEnds.owned))
      | (.ok (output, ends), m) =>
        match connectAll inputFile outputFile (first + 1) rest ends m with
        | (.error cause, m) => (.error cause, m.disconnect { input, output })
        | (.ok connections, m) => (.ok ({ input, output } :: connections), m)

end Wiring

/-- A connection for every stage, in the order of the stages. -/
def wire (p : Pipeline) (m : Machine) : Except ResourceError (List Connection) × Machine :=
  match Wiring.allocate p.pipeCount m with
  | (.error cause, m) => (.error (.pipe cause), m)
  | (.ok ends, m) => Wiring.connectAll p.inputFile p.outputFile 0 p.stages ends m

end PipeShell
