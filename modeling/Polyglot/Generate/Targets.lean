import Polyglot.Generate.Directory
import Polyglot.Generate.LocaleClass
import Polyglot.Script.Printer
import Polyglot.Text.Identifier

/-!
# Targets

What is generated: a module for each locale with an index module, and a declaration file with the
interface alone. Both go through the same steps: `start` once with the reports of the checks,
`compile` once for each catalog, `finish` once at the end. Catalogs may be compiled in any order,
since what `finish` writes is sorted.

* `TargetOptions`: which targets are wanted, and how.
* `Emission`: the disk, and what the targets have noted so far.
* `Emitting`: steps on it that may fail. A step that fails keeps what was done before.
-/

namespace Polyglot.Generate

open Script

structure TargetOptions where
  modulesDir : Option Path := none
  declarationsDir : Option Path := none
  interfaceName : String
  /-- The name of the exported locale selector. -/
  selectorName : String
  /-- Whether the reference locale is imported with the index module. -/
  staticReference : Bool
  /-- Name and version for the notice in generated files. -/
  tool : String
deriving DecidableEq, Repr

/-- A file that was written. -/
structure EmittedFile where
  kind : OutputKind
  name : String
  /-- How many of its messages are fallbacks. -/
  missing : Nat
  total : Nat
deriving DecidableEq, Repr

/-- What the index module needs to know of a locale. -/
structure CompiledLocale where
  id : String
  className : String
  fileName : String
  isReference : Bool
deriving DecidableEq, Repr

/-- What the target for modules has noted. -/
structure ModuleState where
  reports : Option Reports := none
  cacheKeys : CacheKeys := []
  sources : List String := []
  locales : List CompiledLocale := []

/-- What the target for declarations has noted. -/
structure DeclarationState where
  reports : Option Reports := none
  sources : List String := []

structure Emission where
  options : TargetOptions
  disk : Disk
  supply : Supply := {}
  modules : ModuleState := {}
  declarations : DeclarationState := {}

abbrev Emitting := ExceptT Failure (StateM Emission)

namespace TargetOptions

/-- The wanted targets, in the order in which they take their turns. -/
def kinds (o : TargetOptions) : List OutputKind :=
  (if o.modulesDir.isSome then [.modules] else []) ++
    (if o.declarationsDir.isSome then [.declarations] else [])

/-- No target is wanted. -/
def noTarget : Problem where
  kind := .config
  message := "No output format is enabled. Set 'output.ts' or 'output.dts' in .elziirc.json."

/-- The wanted targets, of which there has to be one. -/
def targets (o : TargetOptions) : Except Failure (List OutputKind) :=
  if o.kinds.isEmpty then .error (.problem noTarget) else .ok o.kinds

/-- The name of the class for a locale. -/
def className (o : TargetOptions) (id : String) : String :=
  toIdentifier (id ++ "_" ++ o.interfaceName)

/-- The name of the module for a locale. -/
def moduleName (o : TargetOptions) (id : String) : String :=
  o.className id ++ OutputKind.modules.ending

end TargetOptions

/-- The name of the module that ties the locales together. -/
def indexName : String := "index" ++ OutputKind.modules.ending

/-! ## the text of generated files -/

/-- The module of a locale, with the placeholders still in it. -/
def localeProgram (o : TargetOptions) (reports : Reports) (catalog : Catalog) (source : String) :
    Build Program := do
  let header ← match catalog.header with
    | some code => do pure [Statement.expression (← placeholder code)]
    | none => pure []
  let declaration ← localeClass reports catalog (o.className catalog.id) o.interfaceName
  return {
    comments := [noticeText o.tool [source]]
    body := [.importNames runtimeModule [formatterClass], .importNames "." [o.interfaceName]] ++
      header ++ [.exportDefaultOf declaration] }

/-- The text of a locale module, and the cache keys and words that are left. -/
def localeModule (o : TargetOptions) (reports : Reports) (catalog : Catalog) (source : String)
    (cacheKeys : CacheKeys) (supply : Supply) : String × CacheKeys × Supply :=
  let (program, m) := (localeProgram o reports catalog source).run { cacheKeys, supply }
  (m.insertion.process program.text, m.cacheKeys, m.supply)

/-- Whether a locale is imported with the index module. -/
def CompiledLocale.isStatic (o : TargetOptions) (l : CompiledLocale) : Bool :=
  l.isReference && o.staticReference

/-- The module of a locale as other modules name it. -/
def CompiledLocale.modulePath (l : CompiledLocale) : String :=
  "./" ++ l.className

/-- How the index module lists a locale. -/
def localeEntry (o : TargetOptions) (l : CompiledLocale) : Expr :=
  let messages :=
    if l.isStatic o then .object [("static", .identifier l.className)]
    else .arrow [] (.load l.modulePath)
  .object [("id", .literal l.id), ("messages", messages)]

/-- The index module. -/
def indexProgram (o : TargetOptions) (reports : Reports) (sources : List String)
    (locales : List CompiledLocale) : Program :=
  let imports := (locales.filter (·.isStatic o)).map
    (fun l => Statement.importDefault l.modulePath l.className)
  let reference := match reports.coverage.reference with
    | some id => [("default", Expr.literal id)]
    | none => []
  let selector := Expr.construct selectorClass [.named o.interfaceName]
    [.object (("locales", .array (locales.map (localeEntry o))) :: reference)]
  { comments := [noticeText o.tool sources]
    body := [.importNames runtimeModule [selectorClass]] ++ imports ++
      [.exportNamed (localeInterface o.interfaceName reports),
        .exportNamed (.constant o.selectorName selector),
        .exportDefault (.call (.member (.identifier o.selectorName) proxyMethod) [])] }

/-- The declaration file. -/
def declarationProgram (o : TargetOptions) (reports : Reports) (sources : List String) :
    Program where
  comments := [noticeText o.tool sources]
  body := [.exportNamed (localeInterface o.interfaceName reports)]

/-! ## steps -/

namespace Emitting

/-- The reports that a target was started with. Without them nothing can be generated. -/
def needReports : Option Reports → Emitting Reports
  | some reports => return reports
  | none => throw (.problem
    { kind := .internal, message := "Reports were unavailable during compilation" })

/-- Do something with the disk. -/
def onDisk {α : Type} (act : Disk → Except Failure α × Disk) : Emitting α := do
  let (result, disk) := act (← get).disk
  modify (fun e => { e with disk })
  match result with
  | .ok a => return a
  | .error f => throw f

def create (o : OutputDirectory) : Emitting Unit :=
  onDisk o.create

def write (o : OutputDirectory) (name content : String) : Emitting Unit :=
  onDisk (fun d => o.write d name content)

def cleanUp (o : OutputDirectory) (keep : List String) : Emitting (List String) :=
  onDisk (fun d => o.cleanUp d keep)

/-- Start the target for modules. -/
def startModules (o : OutputDirectory) (reports : Reports) : Emitting Unit := do
  modify (fun e => { e with modules := { e.modules with reports := some reports } })
  create o

/-- Start the target for declarations. -/
def startDeclarations (o : OutputDirectory) (reports : Reports) : Emitting Unit := do
  modify (fun e => { e with declarations := { e.declarations with reports := some reports } })
  create o

/-- Build the module of a catalog. -/
def buildModule (reports : Reports) (catalog : Catalog) (source : String) : Emitting String := do
  let e ← get
  let (text, cacheKeys, supply) :=
    localeModule e.options reports catalog source e.modules.cacheKeys e.supply
  set { e with supply, modules := { e.modules with cacheKeys } }
  return text

/-- Note that the module of a catalog was written. -/
def noteModule (catalog : Catalog) (source : String) : Emitting Unit :=
  modify (fun e =>
    let locale : CompiledLocale :=
      ⟨catalog.id, e.options.className catalog.id, e.options.moduleName catalog.id,
        catalog.isReference⟩
    { e with modules := { e.modules with
        sources := e.modules.sources ++ [source]
        locales := e.modules.locales ++ [locale] } })

/-- Write the module of a catalog. -/
def compileModule (o : OutputDirectory) (catalog : Catalog) (source : String) :
    Emitting EmittedFile := do
  let reports ← needReports (← get).modules.reports
  let text ← buildModule reports catalog source
  let name := (← get).options.moduleName catalog.id
  write o name text
  noteModule catalog source
  return {
    kind := .modules
    name
    missing := (reports.coverage.missingKeys catalog.id).length
    total := reports.coverage.keys.size }

/-- The declaration file does not depend on the catalogs, only on where they come from. -/
def compileDeclarations (source : String) : Emitting Unit :=
  modify (fun e => { e with declarations :=
    { e.declarations with sources := e.declarations.sources ++ [source] } })

/-- Write the index module and remove the modules of earlier runs. -/
def finishModules (o : OutputDirectory) : Emitting (List EmittedFile) := do
  let e ← get
  let reports ← needReports e.modules.reports
  set { e with modules := { e.modules with sources := [], locales := [] } }
  let sources := e.modules.sources.mergeSort (fun a b => a ≤ b)
  let locales := e.modules.locales.mergeSort (fun a b => a.id ≤ b.id)
  write o indexName (indexProgram e.options reports sources locales).text
  let _ ← cleanUp o (indexName :: locales.map (·.fileName))
  return [{ kind := .modules, name := indexName, missing := 0, total := 0 }]

/-- Write the declaration file and remove those of earlier runs. -/
def finishDeclarations (o : OutputDirectory) : Emitting (List EmittedFile) := do
  let e ← get
  let reports ← needReports e.declarations.reports
  let sources := e.declarations.sources.mergeSort (fun a b => a ≤ b)
  let name := e.options.interfaceName ++ OutputKind.declarations.ending
  write o name (declarationProgram e.options reports sources).text
  let _ ← cleanUp o [name]
  return [{ kind := .declarations, name, missing := 0, total := reports.coverage.keys.size }]

/-- The directories of the wanted targets, in their order. -/
def directories (o : TargetOptions) : List OutputDirectory :=
  (o.modulesDir.map (⟨·, .modules⟩)).toList ++ (o.declarationsDir.map (⟨·, .declarations⟩)).toList

/-- Start one target. -/
def startTarget (reports : Reports) (o : OutputDirectory) : Emitting Unit :=
  match o.kind with
  | .modules => startModules o reports
  | .declarations => startDeclarations o reports

/-- Compile a catalog for one target. -/
def compileFor (catalog : Catalog) (source : String) (o : OutputDirectory) :
    Emitting (List EmittedFile) :=
  match o.kind with
  | .modules => return [← compileModule o catalog source]
  | .declarations => do
    compileDeclarations source
    return []

/-- Finish one target. -/
def finishTarget (o : OutputDirectory) : Emitting (List EmittedFile) :=
  match o.kind with
  | .modules => finishModules o
  | .declarations => finishDeclarations o

/-- Do a step for each of some things, in order, and gather the files written. -/
def gather {α : Type} (step : α → Emitting (List EmittedFile)) :
    List α → Emitting (List EmittedFile)
  | [] => return []
  | a :: as => do
    let files ← step a
    return files ++ (← gather step as)

/-- Start all targets. -/
def start (reports : Reports) : Emitting Unit := do
  let _ ← gather (fun o => do startTarget reports o; return []) (directories (← get).options)

/-- Compile a catalog for all targets. -/
def compile (catalog : Catalog) (source : String) : Emitting (List EmittedFile) := do
  gather (compileFor catalog source) (directories (← get).options)

/-- Compile catalogs, each with the path of its file, for all targets. -/
def compileAll (catalogs : List (Catalog × String)) : Emitting (List EmittedFile) :=
  gather (fun c => compile c.1 c.2) catalogs

/-- Finish all targets. -/
def finish : Emitting (List EmittedFile) := do
  gather finishTarget (directories (← get).options)

end Emitting

end Polyglot.Generate
