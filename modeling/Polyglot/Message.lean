import Polyglot.Parameter

/-!
# Messages

A message is a list of parts: text, parameters with their formats, and references to other
messages of its catalog. Once its references are resolved it has none left.

* `Part`, `Format`: what a message is made of.
* `normalize`: one text part for each run of text, and no empty one.
* `Message`: content, visibility and parameters.
-/

namespace Polyglot

/-- Whether a message can be called from outside, or only be referred to. -/
inductive Visibility where
  | exposed
  | hidden
deriving DecidableEq, Repr

/-- How a parameter's value becomes text. -/
inductive Format where
  /-- A function that is applied to the value, written `{p|code}`. -/
  | explicit (code : String)
  /-- A format that the run-time formatter supplies, written `{p:code}`; the code is kept with
  the name of the formatter before it. -/
  | shorthand (code : String)
deriving DecidableEq, Repr

/-- The name by which shorthand formats reach the run-time formatter. -/
def formatterName : String := "$f"

namespace Format

/-- The shorthand format for code as it is written in a message. -/
def ofShorthand (written : String) : Format :=
  .shorthand (formatterName ++ "." ++ written)

end Format

/-- A piece of a message. -/
inductive Part where
  | text (value : String)
  | parameter (name : String) (format : Option Format)
  | reference (name : String)
deriving DecidableEq, Repr

/-- Put a part before content that is already in normal form. -/
def Part.cons : Part → List Part → List Part
  | .text s, .text t :: ps => .text (s ++ t) :: ps
  | .text s, ps => if s.isEmpty then ps else .text s :: ps
  | p, ps => p :: ps

/-- The normal form of a content: adjacent texts are joined and empty ones are gone. -/
def normalize (parts : List Part) : List Part :=
  parts.foldr Part.cons []

structure Message where
  visibility : Visibility
  content : List Part
  parameters : ParameterSet
deriving DecidableEq, Repr

namespace Message

/-- A message with its content in normal form. -/
def ofParts (visibility : Visibility) (content : List Part) (parameters : ParameterSet) : Message :=
  ⟨visibility, normalize content, parameters⟩

def isExposed (m : Message) : Bool :=
  m.visibility == .exposed

end Message

end Polyglot
