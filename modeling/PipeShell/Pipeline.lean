/-!
# Pipelines

A pipeline is what a line means before any descriptor exists: programs with
their arguments in order, and for each where its input comes from and where its
output goes.
-/

set_option autoImplicit false

namespace PipeShell

/-- What one side of a stage is connected to. -/
inductive Channel where
  /-- The shell's own standard stream. -/
  | stdio
  /-- The pipe shared with the neighbouring stage. -/
  | pipe
  /-- The file the line names for that side. -/
  | file
  deriving DecidableEq, Repr

structure Stage where
  name : String
  /-- The whole argument vector, the name included. -/
  argv : List String
  isBuiltin : Bool
  input : Channel
  output : Channel
  deriving DecidableEq, Repr

structure Pipeline where
  stages : List Stage
  inputFile : Option String
  outputFile : Option String
  deriving DecidableEq, Repr

namespace Pipeline

def size (p : Pipeline) : Nat :=
  p.stages.length

/-- One pipe between each two neighbours. -/
def pipeCount (p : Pipeline) : Nat :=
  p.size - 1

end Pipeline

end PipeShell
