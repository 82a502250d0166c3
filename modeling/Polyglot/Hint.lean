/-!
# Hints

A guess at the type of a parameter, drawn from the formats that messages apply to it. `unknown` is
below every other hint and `mixed` is above; `merge` gives the least hint above two.
-/

namespace Polyglot

/-- A guess at the type of a parameter. -/
inductive Hint where
  | unknown
  | number
  | datetime
  | string
  | list
  | mixed
deriving DecidableEq, Repr, Inhabited

namespace Hint

/-- The least hint above both: two different known hints give `mixed`. -/
def merge (a b : Hint) : Hint :=
  if a = b then a
  else if a = unknown then b
  else if b = unknown then a
  else mixed

/-- The hint that a piece of code gives for the value it formats. Only formats of numbers are
recognised, by their first letters. -/
def ofCode (code : String) : Hint :=
  if "number".toList.isPrefixOf code.toList then number else unknown

/-- The word for a hint. -/
def name : Hint → String
  | unknown => "none"
  | number => "number"
  | datetime => "datetime"
  | string => "string"
  | list => "list"
  | mixed => "mixed"

end Hint

end Polyglot
