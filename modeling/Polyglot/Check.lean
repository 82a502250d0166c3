import Polyglot.Check.Agreement
import Polyglot.Check.Coverage

/-!
# Checking catalogs against one another

`checkCatalogs` runs both checks over catalogs in a given order. Its reports, which code generation
reads, are there only if the catalogs are valid as a whole.
-/

namespace Polyglot

/-- The findings that generated code is built on. -/
structure Reports where
  coverage : CoverageReport
  agreement : AgreementReport
deriving DecidableEq

structure Verdict where
  issues : List Issue
  /-- The reports, unless the catalogs cannot be generated. -/
  reports : Option Reports

/-- The checks in the middle of a round. -/
structure Checking where
  coverage : Coverage := {}
  agreement : Agreement := {}
  issues : List Issue := []
  valid : Bool := true

namespace Checking

/-- Take in a catalog. -/
def add (c : Checking) (catalog : Catalog) : Checking :=
  let (coverage, issues) := c.coverage.add catalog
  let (agreement, fits) := c.agreement.add catalog
  { coverage, agreement, issues := c.issues ++ issues, valid := c.valid && fits }

/-- End the round. -/
def verdict (c : Checking) : Verdict :=
  let (coverage, incomplete) := c.coverage.close
  let (agree, mismatches) := c.agreement.close
  { issues := c.issues ++ incomplete ++ mismatches
    reports := if c.valid && agree then some ⟨coverage.report, c.agreement.report⟩ else none }

end Checking

/-- Check catalogs in this order. -/
def checkCatalogs (catalogs : List Catalog) : Verdict :=
  (catalogs.foldl Checking.add {}).verdict

end Polyglot
