import Polyglot.Catalog
import Polyglot.Issue
import Polyglot.Signature

/-!
# Agreement on parameters

Whether the locales use the same parameters for a message. Each locale gives one signature for each
message that can be called. Those that agree become one. A message that is left with more than one
signature forbids generation.

* `Agreement`: the signatures of each key so far; `add` takes in a catalog, `close` ends a round.
-/

namespace Polyglot

structure Agreement where
  /-- The signatures of each key that could not be merged. -/
  buckets : KeyMap (List Signature) := ∅

/-- The one signature of each key. -/
abbrev AgreementReport := KeyMap Signature

namespace Agreement

/-- Merge a signature into the first that agrees with it. -/
def mergeFirst (s : Signature) : List Signature → Option (List Signature)
  | [] => none
  | t :: ts =>
    match t.merge? s with
    | some merged => some (merged :: ts)
    | none => (mergeFirst s ts).map (t :: ·)

/-- The signatures of a key with one more taken in, and whether they are still one. -/
def place (bucket : List Signature) (s : Signature) : List Signature × Bool :=
  match mergeFirst s bucket with
  | some merged => (merged, true)
  | none => (bucket ++ [s], bucket.isEmpty)

/-- Take in a message of the locale `id`. -/
def addMessage (id : String) (state : Agreement × Bool) (e : String × Message) :
    Agreement × Bool :=
  let bucket := (state.1.buckets.find? e.1).getD []
  let (bucket, fits) := place bucket (.ofLocale e.2.parameters.toList id)
  (⟨state.1.buckets.insert e.1 bucket⟩, state.2 && fits)

/-- Take in a catalog, and tell whether it fits what was there. -/
def add (a : Agreement) (catalog : Catalog) : Agreement × Bool :=
  catalog.exposed.foldl (addMessage catalog.id) (a, true)

/-- The keys whose signatures do not agree. -/
def mismatches (a : Agreement) : List Issue :=
  a.buckets.entries.filterMap (fun e =>
    if 1 < e.2.length then some (.parameterMismatch e.1 (e.2.map Signature.describe)) else none)

/-- End a round: whether every key has one signature, and the keys that have more. -/
def close (a : Agreement) : Bool × List Issue :=
  (a.mismatches.isEmpty, a.mismatches)

/-- The first signature of each key. -/
def report (a : Agreement) : AgreementReport :=
  ⟨a.buckets.entries.filterMap (fun e => e.2.head?.map (fun s => (e.1, s))), by
    refine List.Pairwise.filterMap _ ?_ a.buckets.ordered
    intro x y hxy b hb c hc
    obtain ⟨s, -, rfl⟩ := Option.map_eq_some_iff.1 hb
    obtain ⟨t, -, rfl⟩ := Option.map_eq_some_iff.1 hc
    exact hxy⟩

end Agreement

end Polyglot
