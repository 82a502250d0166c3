import Polyglot.Catalog
import Polyglot.Issue

/-!
# Coverage

Which keys the locales have. Catalogs are taken in one by one, and after each of them it is known
which of the keys met so far are absent from which catalog: a key that comes up late is absent from
the catalogs that came earlier. When the round is closed, the keys that the reference locale does
not have are given up as obsolete, if there is a reference locale.

* `Coverage`: what is known so far; `add` takes in a catalog, `close` ends a round.
* `CoverageReport`: the keys to generate, and what each locale lacks of them.

Coverage never forbids generation: all its issues are warnings.
-/

namespace Polyglot

structure Coverage where
  keys : KeySet := ∅
  /-- What each locale lacks, in the order in which it was found. -/
  missing : KeyMap (List String) := ∅
  /-- The locales taken in, in order. -/
  known : List String := []
  /-- The locales that define a key, in order. -/
  definedIn : KeyMap (List String) := ∅
  /-- The first locale that claimed to be the reference. -/
  reference : Option String := none

/-- The outcome of the coverage check. -/
structure CoverageReport where
  /-- Every key that is generated. -/
  keys : KeySet := ∅
  missing : KeyMap KeySet := ∅
  reference : Option String := none
deriving DecidableEq

namespace Coverage

/-- Add a text at the end of the list at a key. -/
def append (m : KeyMap (List String)) (key item : String) : KeyMap (List String) :=
  m.insert key ((m.find? key).getD [] ++ [item])

/-- Note that the locale `id` lacks `key`. -/
def lacks (key : String) (c : Coverage) (id : String) : Coverage :=
  { c with missing := append c.missing id key }

/-- Take in one key that the locale `id` defines. -/
def addKey (id : String) (c : Coverage) (key : String) : Coverage :=
  let isNew := !c.keys.contains key
  let c := { c with definedIn := append c.definedIn key id }
  if isNew then
    let c := c.known.foldl (lacks key) c
    { c with keys := KeySet.insert c.keys key }
  else c

/-- Settle whether a catalog is the reference: the first one to claim it is. -/
def claimReference (c : Coverage) (catalog : Catalog) : Coverage × List Issue :=
  if catalog.isReference then
    match c.reference with
    | none => ({ c with reference := some catalog.id }, [])
    | some kept => (c, [.duplicateReference catalog.id kept])
  else (c, [])

/-- Take in a catalog. -/
def add (c : Coverage) (catalog : Catalog) : Coverage × List Issue :=
  let defined := catalog.exposedKeys
  let absent := c.keys.keys.filter (fun key => !defined.contains key)
  let c := defined.foldl (addKey catalog.id) c
  let c := absent.foldl (fun c key => lacks key c catalog.id) c
  let c := { c with known := c.known ++ [catalog.id] }
  c.claimReference catalog

/-- Forget a key that the reference does not have. -/
def dropKey (c : Coverage) (key : String) : Coverage :=
  { c with
    keys := c.keys.erase key
    missing := c.missing.mapValues (fun keys => keys.filter (· != key)) }

/-- Drop the keys that the reference lacks. -/
def dropObsolete (c : Coverage) : Coverage × List Issue :=
  match c.reference with
  | none => (c, [])
  | some reference =>
    let obsolete := (c.missing.find? reference).getD []
    let c := { c with missing := c.missing.erase reference }
    (obsolete.foldl dropKey c,
      obsolete.map (fun key => .obsoleteKey key reference ((c.definedIn.find? key).getD [])))

/-- The locales that lack a key. -/
def missingIn (c : Coverage) (key : String) : List String :=
  c.known.filter (fun id => ((c.missing.find? id).getD []).contains key)

/-- The keys that some locale lacks. -/
def incomplete (c : Coverage) : List Issue :=
  c.keys.keys.filterMap (fun key =>
    let ids := c.missingIn key
    if ids.isEmpty then none else some (.missingKey key ids))

/-- End a round: drop what is obsolete, and report what is missing of the rest. -/
def close (c : Coverage) : Coverage × List Issue :=
  let (c, obsolete) := c.dropObsolete
  (c, obsolete ++ c.incomplete)

def report (c : Coverage) : CoverageReport where
  keys := c.keys
  missing := c.missing.mapValues KeySet.ofList
  reference := c.reference

end Coverage

namespace CoverageReport

/-- The generated keys that a locale lacks. -/
def missingKeys (r : CoverageReport) (id : String) : List String :=
  ((r.missing.find? id).map KeyMap.keys).getD []

end CoverageReport

end Polyglot
