import Polyglot.Check
import Polyglot.Issue
import Polyglot.Project
import Polyglot.Project.Loading

/-!
# Runs

The two things that can be done with a project: check it, and release it. A release checks first
and generates only what the checks allow.

* `Project.check`: load, leave out colliding locales, and check the rest.
* `Running`: steps that change the disk, leave notes and may fail.
* `Project.release`: check, then generate.
-/

namespace Polyglot

open Generate (EmittedFile Emitting TargetOptions)

structure CheckRun where
  /-- In the order in which they were found. -/
  issues : List Issue
  /-- The catalogs that take part. -/
  catalogs : List SourcedCatalog
  /-- The reports, unless nothing can be generated. -/
  reports : Option Reports
  filesFound : Nat
  /-- How many files were left out. -/
  filesExcluded : Nat

structure ReleaseRun where
  check : CheckRun
  targets : List OutputKind
  /-- The files that were written; none if the checks did not allow it. -/
  emitted : List EmittedFile

/-- A disk in the course of a run, the words to come, and what was noted on the way. -/
structure Session where
  disk : Disk
  supply : Supply := {}
  notes : List String := []

/-- Steps of a run. A step that fails keeps what was done before. -/
abbrev Running := ExceptT Failure (StateM Session)

namespace Running

def ofExcept {α : Type} : Except Failure α → Running α
  | .ok a => return a
  | .error f => throw f

/-- Leave a note. -/
def note (line : String) : Running Unit :=
  modify (fun s => { s with notes := s.notes ++ [line] })

/-- Generate files as part of a run. -/
def ofEmitting {α : Type} (options : TargetOptions) (step : Emitting α) : Running α := do
  let s ← get
  let (result, e) := step.run.run { options, disk := s.disk, supply := s.supply }
  set { s with disk := e.disk, supply := e.supply }
  ofExcept result

end Running

namespace Project

/-- Keep the first catalog of those that would generate the same names, and make an issue of each
of the others. `seen` maps the names to the locales that have them. -/
def dropCollisions (p : Project) :
    (seen : KeyMap String) → List SourcedCatalog → List SourcedCatalog × List Issue
  | _, [] => ([], [])
  | seen, c :: cs =>
    let identifier := toIdentifier c.catalog.id
    match seen.find? identifier with
    | some kept =>
      let (rest, issues) := p.dropCollisions seen cs
      (rest, .localeCollision (p.displayPath c.source) c.catalog.id kept identifier :: issues)
    | none =>
      let (rest, issues) := p.dropCollisions (seen.insert identifier c.catalog.id) cs
      (c :: rest, issues)

/-- The issue that a problem with a file is. -/
def issueOf (p : Project) (f : FileProblem) : Issue :=
  .ofProblem (p.displayPath f.path) f.problem f.line

/-- Check what was loaded. -/
def checkLoaded (p : Project) (l : Loading) : CheckRun :=
  let (catalogs, collisions) := p.dropCollisions ∅ l.catalogs
  let verdict := checkCatalogs (catalogs.map (·.catalog))
  { issues := l.problems.map p.issueOf ++ collisions ++ verdict.issues
    catalogs
    reports := verdict.reports
    filesFound := l.filesFound
    filesExcluded := l.excluded.length }

/-- Load and check the catalogs of a project. -/
def check (p : Project) (d : Disk) : Except Failure CheckRun :=
  (Loading.run d p.catalogsDir p.ignores).map p.checkLoaded

/-! ## with notes -/

/-- Find the project. -/
def start (given : Overrides) : Running Project := do
  let p ← .ofExcept (load (← get).disk given)
  if !p.hasSettingsFile then
    Running.note ("Note: No " ++ Settings.fileName ++ " found, using default configuration")
  Running.note ("Translations directory: " ++ p.catalogsDir.shown)
  return p

/-- Check the project. -/
def runCheck (p : Project) : Running CheckRun := do
  let run ← .ofExcept (p.check (← get).disk)
  Running.note s!"Loaded {run.filesFound} translation file(s), {run.filesExcluded} excluded"
  return run

/-- Generate all files for the catalogs that take part. -/
def generate (p : Project) (reports : Reports) (catalogs : List SourcedCatalog) :
    Emitting (List EmittedFile) := do
  Emitting.start reports
  let compiled ← Emitting.compileAll (catalogs.map (fun c => (c.catalog, p.displayPath c.source)))
  return compiled ++ (← Emitting.finish)

/-- Check the project, and generate what is wanted if the checks allow it. -/
def release (p : Project) (options : TargetOptions) : Running ReleaseRun := do
  let targets ← .ofExcept options.targets
  let check ← p.runCheck
  match check.reports with
  | none =>
    Running.note "Checks failed, no file was generated"
    return ⟨check, targets, []⟩
  | some reports =>
    let count := check.catalogs.length
    let labels := ", ".intercalate (targets.map OutputKind.label)
    Running.note s!"Compiling {count} translation(s) for {labels}"
    return ⟨check, targets, ← Running.ofEmitting options (p.generate reports check.catalogs)⟩

end Project

end Polyglot
