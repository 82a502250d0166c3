import Polyglot.Catalog
import Polyglot.Document.Reader
import Polyglot.Resolver

/-!
# From a document to a catalog

The definitions of a document are registered in file order, the first of each key winning, and
then resolved.

* `CatalogFault`: what is wrong with a document as a catalog; none of it leaves the file out.
* `Catalog.ofDocument`: the catalog, with the faults found.
* `Catalog.ofDraft`: the same with what was noted in reading, as problems in order.
* `Catalog.ofSource`: both steps from a source text.
-/

namespace Polyglot

/-- What is found in building a catalog. -/
inductive CatalogFault where
  | duplicate (key : String) (position : Position)
  | reference (fault : ReferenceFault)
deriving DecidableEq, Repr

namespace CatalogFault

def toProblem : CatalogFault → Problem
  | duplicate key position =>
    { kind := .checks
      message := s!"Duplicate message \"{key}\", only the first definition is used"
      position := some position }
  | reference fault => fault.toProblem

end CatalogFault

/-- The problems that are noted in reading. -/
def Draft.problems (draft : Draft) : Problems :=
  draft.slips.map Slip.toProblem

namespace Catalog

/-- Register definitions, noting those whose key is taken. -/
def register : Resolver → List Definition → Resolver × List CatalogFault
  | r, [] => (r, [])
  | r, d :: ds =>
    match r.insert? d.key d.visibility d.content d.parameters with
    | some r => register r ds
    | none =>
      let (r, faults) := register r ds
      (r, .duplicate d.key d.position :: faults)

/-- The catalog of a document: repeated keys come first among the faults, in file order, then
what resolving the references finds. -/
def ofDocument (id : String) (d : Document) : Catalog × List CatalogFault :=
  let (r, duplicates) := register {} d.definitions
  let (messages, r) := r.resolveAll
  ({ id, header := d.header, directives := d.directives, messages },
    duplicates ++ r.faults.map .reference)

/-- The catalog of what was read, with the problems of reading it and then those of building it. -/
def ofDraft (id : String) (draft : Draft) : Catalog × Problems :=
  let (catalog, faults) := ofDocument id draft.document
  (catalog, draft.problems.merge (faults.map CatalogFault.toProblem))

/-- The catalog that a source text gives, or the problem that ended the reading. -/
def ofSource (id source : String) : Except Problem (Catalog × Problems) :=
  match Document.read source with
  | .error e => .error (SyntaxError.toProblem e)
  | .ok draft => .ok (ofDraft id draft)

end Catalog

end Polyglot
