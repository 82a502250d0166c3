/-!
# Occurrences of a pattern

`countOccurrences` counts the places where a pattern stands in a text, taken from the left and
without overlap. The empty pattern stands before every character and at the end.
-/

namespace Polyglot

/-- What follows `pattern` in a text that begins with it. -/
def afterPattern? : (pattern text : List Char) → Option (List Char)
  | [], text => some text
  | _ :: _, [] => none
  | p :: ps, c :: cs => if p == c then afterPattern? ps cs else none

/-- Occurrences from the left; `skip` characters still belong to the last one found. -/
def countFrom (pattern : List Char) : (skip : Nat) → (text : List Char) → Nat
  | _, [] => 0
  | skip + 1, _ :: cs => countFrom pattern skip cs
  | 0, c :: cs =>
    if (afterPattern? pattern (c :: cs)).isSome then
      countFrom pattern (pattern.length - 1) cs + 1
    else
      countFrom pattern 0 cs

/-- The number of occurrences that do not overlap, on characters. -/
def countIn (pattern text : List Char) : Nat :=
  if pattern = [] then text.length + 1 else countFrom pattern 0 text

/-- The number of occurrences of `pattern` in `text` that do not overlap. -/
def countOccurrences (pattern text : String) : Nat :=
  countIn pattern.toList text.toList

/-- Occurrences of a single character cannot overlap. -/
theorem countIn_singleton (c : Char) (text : List Char) : countIn [c] text = text.count c := by
  show countFrom [c] 0 text = text.count c
  induction text with
  | nil => rfl
  | cons d ds ih =>
    by_cases h : c = d
    · subst h
      simp [countFrom, afterPattern?, ih]
    · simp [countFrom, afterPattern?, ih, h, Ne.symm h]

end Polyglot
