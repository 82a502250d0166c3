/-!
# Lines of a text

`textLines` cuts a text at its line feeds. A carriage return right before the line feed goes with
it, and a line feed at the end begins no further line.
-/

namespace Polyglot

/-- The line with these characters in reverse, without a carriage return at its end. -/
def closeLine : List Char → String
  | '\r' :: cs => String.ofList cs.reverse
  | cs => String.ofList cs.reverse

/-- The lines of `cs`, of which the characters `seen` (in reverse) are already read. -/
def linesFrom (seen : List Char) : List Char → List String
  | [] => if seen.isEmpty then [] else [String.ofList seen.reverse]
  | '\n' :: cs => closeLine seen :: linesFrom [] cs
  | c :: cs => linesFrom (c :: seen) cs

/-- The lines of a text. -/
def textLines (text : String) : List String :=
  linesFrom [] text.toList

end Polyglot
