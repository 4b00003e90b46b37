import PipeShell.Environment
import PipeShell.Text.Escape

/-!
# Styled text

Help, complaints about the command line and lines of the log are made of pieces
in different styles.  A terminal shows the styles; elsewhere the text is
written without any command to a terminal, unless the environment says
otherwise (`wantsColor`).
-/

set_option autoImplicit false

namespace PipeShell.Text

inductive Style where
  | plain
  | heading
  /-- What is to be typed as it stands. -/
  | literal
  | alarm
  | wrong
  | right
  | caution
  | faint
  deriving DecidableEq, Repr

namespace Style

/-- The codes that turn a style on, bold being 1, underlined 4 and the colors from 30 on, their
bright forms from 90 on. -/
def codes : Style → List Nat
  | plain => []
  | heading => [1, 4]
  | literal => [1]
  | alarm => [1, 31]
  | wrong => [33]
  | right => [32]
  | caution => [33]
  | faint => [90]

def switch (code : Nat) : String := s!"\x1b[{code}m"

/-- A text between the codes that turn the style on and the code that turns all styles off. -/
def wrap (style : Style) (text : String) : String :=
  if style.codes = [] then text
  else String.join (style.codes.map switch) ++ text ++ switch 0

end Style

/-- Pieces of text, each in one style. -/
abbrev Styled := List (Style × String)

namespace Styled

def plain (text : String) : Styled := [(.plain, text)]

/-- The text of the pieces with the commands that show their styles, or without any command. -/
def render (styled : Bool) (pieces : Styled) : String :=
  let shown := String.join (pieces.map fun (style, text) => style.wrap text)
  if styled then shown else withoutEscapes shown

/-- All texts with a separator between neighbours. -/
def intercalate (separator : String) (texts : List Styled) : Styled :=
  List.flatten (texts.intersperse (plain separator))

end Styled

/-! ## When styles are shown -/

/-- What a variable holds, if it is set. -/
def setting? (env : Environment) (name : String) : Option String :=
  (env.get? name).map decodeLossy

/-- Styles are wanted on an output.  A wish that holds for every output comes first; without one, a
terminal shows them if it can. -/
def wantsColor (env : Environment) (isTerminal : Bool) : Bool :=
  let isSet := fun name => (setting? env name).isSome
  let color := setting? env "CLICOLOR"
  if (setting? env "NO_COLOR").any (· ≠ "") then false
  else if (setting? env "CLICOLOR_FORCE").any (· ≠ "0") then true
  else if color = some "0" then false
  else
    let canShow := (setting? env "TERM").any (· ≠ "dumb")
    isTerminal && (canShow || color.isSome || isSet "CI")

end PipeShell.Text
