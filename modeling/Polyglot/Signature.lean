import Polyglot.KeyMap
import Polyglot.Parameter

/-!
# Signatures

The parameters of a message as some locales use it. Two signatures agree when the names of one are
among the names of the other; they are then merged into one that has all names.

* `Signature.merge?`: the merge, if the two agree.
* `Signature.describe`: the form `(count: number, name) used in de, it`.
-/

namespace Polyglot

structure Signature where
  /-- In order. Those of a message have different names, but a signature may be made of any list. -/
  parameters : List Parameter
  /-- The locales that use the message so. -/
  usedIn : KeySet
deriving DecidableEq

namespace Signature

/-- The signature of a message in one locale. -/
def ofLocale (parameters : List Parameter) (id : String) : Signature :=
  ⟨parameters, KeySet.insert ∅ id⟩

/-- The parameters in `ps` whose names are not in `qs`. -/
def missingFrom (qs ps : List Parameter) : List Parameter :=
  ps.filter (fun p => (Parameter.find? qs p.name).isNone)

/-- A parameter with the hint that `qs` has for its name taken in. -/
def withHintOf (qs : List Parameter) (p : Parameter) : Parameter :=
  { p with hint := p.hint.merge (((Parameter.find? qs p.name).map (·.hint)).getD .unknown) }

/-- The parameters of both: those of the contained list in its order, with the hints of both
sides, and then what the other list has beyond them. -/
def joinParameters (base other : List Parameter) : List Parameter :=
  base.map (withHintOf other) ++ missingFrom base other

/-- The merge of two signatures, unless each has a name that the other lacks. The order of the
smaller side comes first, that of `a` if both have the same names. -/
def merge? (a b : Signature) : Option Signature :=
  if (missingFrom b.parameters a.parameters).isEmpty then
    some ⟨joinParameters a.parameters b.parameters, a.usedIn.union b.usedIn⟩
  else if (missingFrom a.parameters b.parameters).isEmpty then
    some ⟨joinParameters b.parameters a.parameters, a.usedIn.union b.usedIn⟩
  else none

/-- A parameter in a description: its name, and its hint if there is one. -/
def describeParameter (p : Parameter) : String :=
  if p.hint = .unknown then p.name else s!"{p.name}: {p.hint.name}"

def describe (s : Signature) : String :=
  "(" ++ ", ".intercalate (s.parameters.map describeParameter) ++ ") used in " ++
    ", ".intercalate s.usedIn.keys

end Signature

end Polyglot
