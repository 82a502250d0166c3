/-!
# Colours

Text for a terminal. A style puts codes around a text, unless colours are off.
-/

namespace Polyglot.Cli

inductive Color where
  | red
  | green
  | yellow
  | blue
  | cyan
deriving DecidableEq, Repr

structure Style where
  bold : Bool := false
  dimmed : Bool := false
  color : Option Color := none
deriving DecidableEq, Repr

namespace Color

def code : Color → String
  | red => "31"
  | green => "32"
  | yellow => "33"
  | blue => "34"
  | cyan => "36"

end Color

namespace Style

def red : Style := { color := some .red }
def green : Style := { color := some .green }
def yellow : Style := { color := some .yellow }
def blue : Style := { color := some .blue }
def strong : Style := { bold := true }
def strongRed : Style := { bold := true, color := some .red }
def strongYellow : Style := { bold := true, color := some .yellow }
def strongCyan : Style := { bold := true, color := some .cyan }
def faintCyan : Style := { dimmed := true, color := some .cyan }

/-- The codes of a style, weight first. -/
def codes (s : Style) : List String :=
  (if s.bold then ["1"] else []) ++ (if s.dimmed then ["2"] else []) ++
    (s.color.map Color.code).toList

/-- A text in a style, if colours are on. -/
def paint (colors : Bool) (s : Style) (text : String) : String :=
  if colors then "\x1b[" ++ ";".intercalate s.codes ++ "m" ++ text ++ "\x1b[0m" else text

end Style

end Polyglot.Cli
