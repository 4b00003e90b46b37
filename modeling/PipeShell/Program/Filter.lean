import PipeShell.Program.ByteSet
import PipeShell.Program.Listing

/-!
# Filters

A filter takes its inputs piece by piece and gives output as it goes.
`beginInput` tells it that an input is open, `feed` hands it a piece,
`endInput` tells it that the input has ended, and `finish` is what it gives
when there is no more.
-/

set_option autoImplicit false

namespace PipeShell

/-- How much of each input is given. -/
structure Share where
  /-- Bytes are counted, not lines. -/
  inBytes : Bool
  amount : Nat
  /-- All but that much is given. -/
  fromEnd : Bool
  deriving DecidableEq

/-- Whether each input has its name above it. -/
inductive Titles where
  | no
  /-- An empty line divides an input from the one before, if there was one. -/
  | yes (isFirst : Bool)
  deriving DecidableEq

inductive Filter where
  | copy
  | list (listing : Listing) (state : ListingState)
  | exchange (e : Exchange)
  /-- Gives a share of each input; `left` is still to come of this one. -/
  | share (share : Share) (titles : Titles) (left : Nat) (held : ByteArray)
  /-- Reports on all inputs together, to a file if one is named. -/
  | gather (report : Report) (target : Option Bytes) (held : ByteArray)
  /-- Counts each input, and all of them together if there are `several`. -/
  | count (columns : Columns) (several : Bool) (held : ByteArray) (total : Tally)

namespace Filter

/-- How much of a text a share from the start takes, and what is still to come of it. -/
def Share.extent (share : Share) (left : Nat) (data : ByteArray) : Nat × Nat :=
  if share.inBytes then (min left data.size, left - data.size)
  else Text.lineExtent data left

/-- How much of a whole text is left without its end. -/
def Share.rest (share : Share) (data : ByteArray) : Nat :=
  if share.inBytes then data.size - share.amount
  else
    let lines := Text.linesOf data
    let kept := (lines.take (lines.length - share.amount)).foldl (fun n line =>
      n + line.length + 1) 0
    min kept data.size

/-- The title of an input. -/
def title (isFirst : Bool) (name : Option Bytes) : ByteArray :=
  let shown := match name with
    | some name => if name = [45] then Text.encode "standard input" else name
    | none => Text.encode "standard input"
  let gap : Bytes := if isFirst then [] else [Text.newline]
  Text.packed (gap ++ Text.encode "==> " ++ shown ++ Text.encode " <==\n")

/-! ## Feeding -/

/-- The filter wants no more of the input that is open. -/
def isSated : Filter → Bool
  | share s _ left _ => !s.fromEnd && left = 0
  | _ => false

/-- How much the filter reads at once, if it may read `most`. -/
def appetite (f : Filter) (most : Nat) : Nat :=
  match f with
  | share s _ left _ => if s.inBytes && !s.fromEnd then min left most else most
  | _ => most

/-- How much of a piece the filter had no use for, when it gave `out` for it. -/
def surplus (f : Filter) (data out : ByteArray) : Nat :=
  match f with
  | share s .. => if s.fromEnd then 0 else data.size - out.size
  | _ => 0

/-- The filter when an input has been opened, and what it gives for that. -/
def beginInput (f : Filter) (name : Option Bytes) : Filter × ByteArray :=
  match f with
  | share s (.yes isFirst) _ _ => (share s (.yes false) s.amount .empty, title isFirst name)
  | share s .no _ _ => (share s .no s.amount .empty, .empty)
  | f => (f, .empty)

/-- The filter after a piece of input, and what it gives for it. -/
def feed (f : Filter) (data : ByteArray) : Filter × ByteArray :=
  match f with
  | copy => (copy, data)
  | list listing state =>
    let (state, out) := listing.apply state data
    (list listing state, out)
  | exchange e =>
    let (e, out) := e.apply data
    (exchange e, out)
  | share s titles left held =>
    if s.fromEnd then (share s titles left (held ++ data), .empty)
    else
      let (extent, left) := Share.extent s left data
      (share s titles left held, data.extract 0 extent)
  | gather report target held => (gather report target (held ++ data), .empty)
  | count columns several held total => (count columns several (held ++ data) total, .empty)

/-- The filter after the end of an input, and what it gives for that input. -/
def endInput (f : Filter) (name : Option Bytes) : Filter × ByteArray :=
  match f with
  | share s titles left held =>
    (share s titles left .empty, if s.fromEnd then held.extract 0 (Share.rest s held) else .empty)
  | count columns several held total =>
    let here := Tally.ofData held
    (count columns several .empty (total.add here), here.write columns name)
  | gather report target held => (gather report target (Text.ended held), .empty)
  | f => (f, .empty)

/-- What the filter gives when all its inputs have ended. -/
def finish : Filter → ByteArray
  | gather report _ held => report.write held
  | count columns several _ total =>
    if several then total.write columns (some (Text.encode "total")) else .empty
  | _ => .empty

/-- The file that the filter gives its output to at the end. -/
def target? : Filter → Option Bytes
  | gather _ target _ => target
  | _ => none

end Filter

end PipeShell
