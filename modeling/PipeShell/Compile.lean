import PipeShell.Line
import PipeShell.Pipeline

/-!
# From a line to a pipeline

Channels follow from the place of a stage alone (`channels`): neighbours share a
pipe, and the files a line names belong to its two ends.  The first word of a
stage is looked up among the aliases after every word has had its tilde
expanded; what the alias contributes stands before the remaining words.  A
builtin runs inside the shell, so it cannot be piped or redirected.

What the session knows enters through a `Context`, and nothing is assumed of
it.
-/

set_option autoImplicit false

namespace PipeShell

/-- What compiling needs to know of the session. -/
structure Context where
  isBuiltin : String → Bool
  expandAlias : String → String
  expandTilde : String → String

namespace Compile

/-- The channels of stage `i` of `n`. -/
def channels (i n : Nat) (hasInput hasOutput : Bool) : Channel × Channel :=
  let input := if i ≠ 0 then .pipe else if hasInput then .file else .stdio
  let output := if i + 1 ≠ n then .pipe else if hasOutput then .file else .stdio
  (input, output)

/-- The argument vector of a stage's text: tildes expanded in every word, then the first word
replaced by the words of its alias. -/
def arguments (ctx : Context) (text : String) : List String :=
  match (Text.words text).map ctx.expandTilde with
  | [] => []
  | command :: rest =>
    match Text.words (ctx.expandAlias command) with
    | [] => []
    | head => head ++ rest

def stage (ctx : Context) (text : String) (input output : Channel) : Except CompileError Stage :=
  match arguments ctx text with
  | [] => .error .emptyCommand
  | name :: rest =>
    let isBuiltin := ctx.isBuiltin name
    if isBuiltin && !(input = .stdio && output = .stdio) then .error (.redirectedBuiltin name)
    else .ok { name, argv := name :: rest, isBuiltin, input, output }

def segments (ctx : Context) (s : Segments) : Except CompileError Pipeline := do
  let n := s.stages.length
  let stages ← s.stages.zipIdx.mapM fun (text, i) =>
    let (input, output) := channels i n s.input.isSome s.output.isSome
    stage ctx text input output
  return { stages, inputFile := s.input, outputFile := s.output }

end Compile

/-- The pipeline a line stands for. -/
def compile (ctx : Context) (line : String) : Except ShellError Pipeline :=
  match Line.parse line with
  | .error cause => .error (.line cause)
  | .ok s =>
    match Compile.segments ctx s with
    | .error cause => .error (.compile cause)
    | .ok pipeline => .ok pipeline

end PipeShell
