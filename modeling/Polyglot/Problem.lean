import Polyglot.Position

/-!
# Problems

What can go wrong, in the form in which it is passed on and shown: a kind, a message, further
lines and perhaps a place. The parts of the library that find a fault describe it by its cause;
`Problem` is what every cause becomes.

* `Problem.isFatal`: whether the file that the problem belongs to has to be left out.
* `Problems`: the problems collected on the way, in the order in which they were found.
-/

namespace Polyglot

/-- Which part of the work a problem belongs to. -/
inductive ProblemKind where
  | config
  | parser
  | checks
  | files
  | internal
  | other
deriving DecidableEq, Repr

structure Problem where
  kind : ProblemKind
  message : String
  /-- Further lines, shown below the message. -/
  details : List String := []
  position : Option Position := none
deriving DecidableEq, Repr

namespace Problem

/-- Only what the checks find leaves a file usable. -/
def isFatal (p : Problem) : Bool :=
  p.kind != .checks

end Problem

/-- Problems in the order in which they were found. -/
abbrev Problems := List Problem

namespace Problems

def push (ps : Problems) (p : Problem) : Problems :=
  ps ++ [p]

/-- All problems of one collection, then all of the other. -/
def merge (ps qs : Problems) : Problems :=
  ps ++ qs

def hasFatal (ps : Problems) : Bool :=
  ps.any Problem.isFatal

end Problems

/-- What a step that may fail comes to when its result is changed. -/
theorem map_eq_ok_iff {α β ε : Type} {f : α → β} {x : Except ε α} {b : β} :
    x.map f = .ok b ↔ ∃ a, x = .ok a ∧ f a = b := by
  cases x with
  | error e => simp [Except.map]
  | ok a => simp [Except.map]

end Polyglot
