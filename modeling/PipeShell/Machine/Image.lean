import PipeShell.Machine

/-!
# What a file runs as

An installed program runs as itself.  A text that begins with `#!` runs the
program named there, with the path of the text among its arguments.  Anything
else cannot be run.
-/

set_option autoImplicit false

namespace PipeShell

/-- A program and the arguments it is started with. -/
structure Image where
  program : String
  argv : List Bytes
  deriving DecidableEq

namespace Image

def bang : Bytes := [35, 33]

def isGap (b : UInt8) : Bool := b = 32 || b = 9

/-- The program that the first line of a text names, and what that line gives it as an argument. -/
def interpreter? (content : Bytes) : Option (Bytes × List Bytes) :=
  if bang.isPrefixOf content then
    let line := ((content.drop 2).takeWhile (· ≠ 10)).dropWhile isGap
    let program := line.takeWhile fun b => !isGap b
    let argument := ((line.dropWhile fun b => !isGap b).dropWhile isGap).reverse.dropWhile isGap
    if program = [] then none
    else some (program, if argument = [] then [] else [argument.reverse])
  else none

/-- How many interpreters may stand between a file and the program that runs. -/
def interpreterLimit : Nat := 5

def load (files : FileSystem) (here : Nat) (depth : Nat) (path : Bytes) (argv : List Bytes) :
    Except Errno Image :=
  match files.find here path with
  | .error cause => .error cause
  | .ok id =>
    match files.node? id with
    | some (.program program) => .ok { program, argv }
    | some (.file _ content) =>
      if !files.permits id .execute then .error .accessDenied
      else match interpreter? content.data.toList with
        | none => .error .notExecutable
        | some (program, extra) =>
          match depth with
          | 0 => .error .tooManyLinks
          | depth + 1 => load files here depth program (program :: extra ++ path :: argv.drop 1)
    | _ => .error .accessDenied

/-- What the file at a path runs as, for a process in a given directory. -/
def ofPath (m : Machine) (here : Nat) (path : Bytes) (argv : List Bytes) : Except Errno Image :=
  load m.files here interpreterLimit path argv

/-- The first of the paths that can be run, or whether one of them was found but could not be. -/
inductive Choice where
  | run (image : Image)
  | cannotRun
  | notFound
  deriving DecidableEq

/-- Tries the paths in order.  A path that leads nowhere counts as not found; any other error counts
as found. -/
def choose (attempt : Bytes → Except Errno Image) (found : Bool) : List Bytes → Choice
  | [] => if found then .cannotRun else .notFound
  | path :: rest =>
    match attempt path with
    | .ok image => .run image
    | .error cause =>
      choose attempt (found || !(cause = .noEntry || cause = .notDirectory)) rest

end Image

end PipeShell
