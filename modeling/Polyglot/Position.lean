/-!
# Places in a text

Lines and columns count from one. A column is a number of characters, and only the line feed
begins a new line.

* `Position`: a line and a column.
* `Position.after`, `Position.afterAll`: the place reached by reading on.
* `At`: a value with the place that it belongs to.
-/

namespace Polyglot

/-- A place in a text. -/
structure Position where
  line : Nat
  column : Nat
deriving DecidableEq, Repr, Inhabited

namespace Position

/-- The first character of a text stands here. -/
def start : Position := ⟨1, 1⟩

/-- The place after a character that stands at `p`. -/
def after (p : Position) (c : Char) : Position :=
  if c = '\n' then ⟨p.line + 1, 1⟩ else ⟨p.line, p.column + 1⟩

/-- The place after some characters, the first of which stands at `p`. -/
def afterAll (p : Position) (cs : List Char) : Position :=
  cs.foldl after p

/-- The form `line:column`. -/
def label (p : Position) : String :=
  s!"{p.line}:{p.column}"

/-- Reading order: by line, then by column. -/
protected def compare (p q : Position) : Ordering :=
  (compare p.line q.line).then (compare p.column q.column)

end Position

/-- A value found at a place. -/
structure At (α : Type) where
  value : α
  position : Position
deriving DecidableEq, Repr

end Polyglot
