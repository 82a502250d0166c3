import Polyglot.Proofs.Coverage
import Polyglot.Proofs.Emitting
import Mathlib.Data.List.Nodup

/-!
# The index module

The index module ties the locales together. It lists them, names the default, and imports some of the
classes right away. `readIndex` reads all this back from the tree of a module, so that it can be
compared with the catalogs that were compiled.

* `readIndex_indexProgram`: what is read is what the target has noted;
* `Lists`, `lists_indexOf`: which locales are listed, and how;
* `ReferenceAlone`, `referenceAlone_iff`: when the reference alone is imported right away;
* `index_lists_catalogs`: the main statement.
-/

namespace Polyglot.Generate

open Script Coverage Emitting

/-! ### Reading -/

/-- How the index module gets at the class of a locale: by an import of its own, or by loading its
module when it is asked for. -/
inductive Access where
  | static (className : String)
  | dynamic (path : String)
deriving DecidableEq, Repr

def Access.isStatic : Access → Bool
  | static _ => true
  | dynamic _ => false

/-- What an index module tells. -/
structure IndexListing where
  /-- The default imports: a name, and the module that it stands for. -/
  imports : List (String × String)
  /-- The locales in order, by name. -/
  locales : List (String × Access)
  /-- The name of the default locale. -/
  reference : Option String
deriving DecidableEq, Repr

/-- The property of an object. -/
def property? (name : String) : Expr → Option Expr
  | .object properties => properties.lookup name
  | _ => none

def literal? : Expr → Option String
  | .literal value => some value
  | _ => none

def readAccess : Expr → Option Access
  | .arrow [] (.load path) => some (.dynamic path)
  | value =>
    match property? "static" value with
    | some (.identifier className) => some (.static className)
    | _ => none

def readLocale (entry : Expr) : Option (String × Access) := do
  let id ← (property? "id" entry).bind literal?
  let access ← (property? "messages" entry).bind readAccess
  return (id, access)

def readSelector : Expr → Option (List (String × Access) × Option String)
  | .construct _ _ [options] =>
    match property? "locales" options with
    | some (.array entries) => do
      let locales ← entries.mapM readLocale
      return (locales, (property? "default" options).bind literal?)
    | _ => none
  | _ => none

def exportedConstant? : Script.Statement → Option Expr
  | .exportNamed (.constant _ value) => some value
  | _ => none

def defaultImport? : Script.Statement → Option (String × String)
  | .importFrom [.whole name] source => some (name, source)
  | _ => none

/-- What an index module tells, if it is one. -/
def readIndex (program : Program) : Option IndexListing := do
  let selector ← program.body.findSome? exportedConstant?
  let (locales, reference) ← readSelector selector
  return ⟨program.body.filterMap defaultImport?, locales, reference⟩

/-- How a locale is to be listed. -/
def CompiledLocale.access (o : TargetOptions) (l : CompiledLocale) : Access :=
  if l.isStatic o then .static l.className else .dynamic l.modulePath

lemma readLocale_localeEntry (o : TargetOptions) (l : CompiledLocale) :
    readLocale (localeEntry o l) = some (l.id, l.access o) := by
  unfold localeEntry CompiledLocale.access
  cases l.isStatic o <;> rfl

lemma mapM_readLocale (o : TargetOptions) (locales : List CompiledLocale) :
    (locales.map (localeEntry o)).mapM readLocale = some (locales.map fun l => (l.id, l.access o)) := by
  induction locales with
  | nil => rfl
  | cons l locales ih =>
    rw [List.map_cons, List.mapM_cons, readLocale_localeEntry, ih]
    rfl

section Program

variable (o : TargetOptions) (reports : Reports) (locales : List CompiledLocale)

/-- The list of locales and the name of the default, as the index module has them. -/
def selectorOptions : Expr :=
  .object (("locales", .array (locales.map (localeEntry o))) ::
    match reports.coverage.reference with
    | some id => [("default", .literal id)]
    | none => [])

lemma readSelector_selectorOptions (callee : String) (types : List TypeNode) :
    readSelector (.construct callee types [selectorOptions o reports locales]) =
      some (locales.map fun l => (l.id, l.access o), reports.coverage.reference) := by
  show ((locales.map (localeEntry o)).mapM readLocale).bind _ = _
  rw [mapM_readLocale]
  unfold selectorOptions
  cases reports.coverage.reference <;> rfl

/-- Imports are no constants. -/
lemma findSome?_imports :
    (locales.map fun l => Script.Statement.importDefault l.modulePath l.className).findSome?
      exportedConstant? = none := by
  rw [List.findSome?_eq_none_iff]
  intro statement hstatement
  obtain ⟨l, -, rfl⟩ := List.mem_map.1 hstatement
  rfl

lemma filterMap_imports :
    (locales.map fun l => Script.Statement.importDefault l.modulePath l.className).filterMap
      defaultImport? = locales.map fun l => (l.className, l.modulePath) := by
  rw [List.filterMap_map]
  exact congrFun
    (List.filterMap_eq_map (f := fun l : CompiledLocale => (l.className, l.modulePath))) locales

theorem readIndex_indexProgram (sources : List String) :
    readIndex (indexProgram o reports sources locales) = some
      { imports := (locales.filter (·.isStatic o)).map fun l => (l.className, l.modulePath)
        locales := locales.map fun l => (l.id, l.access o)
        reference := reports.coverage.reference } := by
  have hselector : (indexProgram o reports sources locales).body.findSome? exportedConstant? =
      some (.construct selectorClass [.named o.interfaceName] [selectorOptions o reports locales]) := by
    unfold indexProgram
    rw [List.findSome?_append, List.findSome?_append, findSome?_imports]
    rfl
  have himports : (indexProgram o reports sources locales).body.filterMap defaultImport? =
      (locales.filter (·.isStatic o)).map fun l => (l.className, l.modulePath) := by
    unfold indexProgram
    rw [List.filterMap_append, List.filterMap_append, filterMap_imports]
    exact List.append_nil _
  unfold readIndex
  rw [hselector, himports]
  show (readSelector _).bind _ = _
  rw [readSelector_selectorOptions]
  rfl

end Program

/-- What the index module at the end of a run tells. -/
lemma exists_readIndex_indexOf (e : Emission) (reports : Reports) :
    ∃ listing, readIndex (indexOf e reports) = some listing ∧
      listing.reference = reports.coverage.reference ∧
      listing.locales.map Prod.fst =
        (e.modules.locales.mergeSort (fun a b => a.id ≤ b.id)).map CompiledLocale.id :=
  ⟨_, readIndex_indexProgram _ _ _ _, rfl, List.map_map⟩

/-! ### The locales that are listed -/

/-- The access to the locale of a catalog. -/
def accessOf (o : TargetOptions) (catalog : Catalog) : Access :=
  if catalog.isReference && o.staticReference then .static (o.className catalog.id)
  else .dynamic ("./" ++ o.className catalog.id)

lemma isStatic_accessOf (o : TargetOptions) (catalog : Catalog) :
    (accessOf o catalog).isStatic = true ↔ catalog.isReference = true ∧ o.staticReference = true := by
  unfold accessOf
  rw [← Bool.and_eq_true]
  cases catalog.isReference && o.staticReference <;> simp [Access.isStatic]

/-- The import that goes with an access. -/
def Access.import? : Access → Option (String × String)
  | static className => some (className, "./" ++ className)
  | dynamic _ => none

/-- The listing has each of the catalogs once, in the order of their names. -/
structure Lists (o : TargetOptions) (catalogs : List Catalog) (listing : IndexListing) : Prop where
  ordered : (listing.locales.map Prod.fst).Pairwise (· < ·)
  mem_locales_iff : ∀ id access, (id, access) ∈ listing.locales ↔
    ∃ catalog ∈ catalogs, catalog.id = id ∧ accessOf o catalog = access
  imports : listing.imports = listing.locales.filterMap fun locale => locale.2.import?

lemma imports_eq_filterMap (o : TargetOptions) (locales : List CompiledLocale) :
    (locales.filter (·.isStatic o)).map (fun l => (l.className, l.modulePath)) =
      (locales.map fun l => (l.id, l.access o)).filterMap fun locale => locale.2.import? := by
  induction locales with
  | nil => rfl
  | cons l locales ih =>
    rw [List.map_cons, List.filterMap_cons, List.filter_cons, ← ih]
    unfold CompiledLocale.access
    cases l.isStatic o <;> rfl

section Lists

variable {catalogs : List Catalog} (hids : (catalogs.map Catalog.id).Nodup) {o : TargetOptions}
include hids

/-- Locales may have been noted in any order. -/
theorem lists_of_perm {reports : Reports} {locales : List CompiledLocale}
    (hlocales : locales.Perm (catalogs.map (.ofCatalog o))) {sources : List String}
    {listing : IndexListing} (hlisting : readIndex (indexProgram o reports sources
      (locales.mergeSort (fun a b => a.id ≤ b.id))) = some listing) :
    Lists o catalogs listing := by
  rw [readIndex_indexProgram] at hlisting
  obtain rfl := Option.some.inj hlisting
  have hperm := (List.mergeSort_perm locales (fun a b => a.id ≤ b.id)).trans hlocales
  refine ⟨?_, fun id access => ?_, imports_eq_filterMap o _⟩
  · rw [List.map_map]
    refine KeyMap.ordered_mergeSort ((hlocales.map _).nodup_iff.2 ?_)
    rwa [List.map_map]
  · simp only [List.mem_map, hperm.mem_iff]
    constructor
    · rintro ⟨_, ⟨catalog, hcatalog, rfl⟩, heq⟩
      obtain ⟨hid, haccess⟩ := Prod.mk.inj heq
      exact ⟨catalog, hcatalog, hid, haccess⟩
    · rintro ⟨catalog, hcatalog, rfl, rfl⟩
      exact ⟨_, ⟨catalog, hcatalog, rfl⟩, rfl⟩

/-! ### The reference -/

/-- There is one marked catalog at most exactly if each of them has the name of the first. -/
lemma countP_isReference_le_one_iff : catalogs.countP Catalog.isReference ≤ 1 ↔
    ∀ c ∈ catalogs, c.isReference = true → (referenceOf catalogs).map Catalog.id = some c.id := by
  have hmarked : ∀ c, c ∈ catalogs.filter Catalog.isReference ↔ c ∈ catalogs ∧ c.isReference = true :=
    fun c => List.mem_filter
  have hnodup : ((catalogs.filter Catalog.isReference).map Catalog.id).Nodup :=
    hids.sublist (List.filter_sublist.map _)
  unfold referenceOf
  rw [← List.head?_filter, List.countP_eq_length_filter]
  constructor
  · intro hone c hc href
    have hmem := (hmarked c).2 ⟨hc, href⟩
    obtain ⟨t, ht⟩ := List.length_eq_one_iff.1 (Nat.le_antisymm hone (List.length_pos_of_mem hmem))
    rw [ht, List.mem_singleton] at hmem
    rw [ht, hmem]
    rfl
  · intro hall
    rcases hf : catalogs.filter Catalog.isReference with _ | ⟨t, _ | ⟨u, us⟩⟩
    · exact Nat.zero_le 1
    · exact Nat.le_refl 1
    · rw [hf] at hmarked hnodup hall
      obtain ⟨hu, href⟩ := (hmarked u).1 (by simp)
      have hid : t.id = u.id := Option.some.inj (hall u hu href)
      simp [hid] at hnodup

/-- The reference is imported right away if that is wanted, and no other locale is. -/
def ReferenceAlone (o : TargetOptions) (listing : IndexListing) : Prop :=
  ∀ id access, (id, access) ∈ listing.locales →
    (access.isStatic = true ↔ o.staticReference = true ∧ listing.reference = some id)

theorem Lists.referenceAlone_iff {listing : IndexListing} (hlists : Lists o catalogs listing)
    (hreference : listing.reference = (referenceOf catalogs).map Catalog.id) :
    ReferenceAlone o listing ↔
      (o.staticReference = true → catalogs.countP Catalog.isReference ≤ 1) := by
  rw [countP_isReference_le_one_iff hids]
  unfold ReferenceAlone
  rw [hreference]
  constructor
  · intro halone hstatic c hc href
    have haccess := (hlists.mem_locales_iff _ _).2 ⟨c, hc, rfl, rfl⟩
    exact ((halone _ _ haccess).1 ((isStatic_accessOf o c).2 ⟨href, hstatic⟩)).2
  · intro hone id access haccess
    obtain ⟨c, hc, rfl, rfl⟩ := (hlists.mem_locales_iff _ _).1 haccess
    rw [isStatic_accessOf, and_comm]
    refine and_congr_right fun hstatic => ⟨hone hstatic c hc, fun hid => ?_⟩
    -- A catalog with the name of the reference is the reference, and so it is marked.
    obtain ⟨r, hr, hrid⟩ := Option.map_eq_some_iff.1 hid
    have hrc : r = c := List.inj_on_of_nodup_map hids (List.mem_of_find?_eq_some hr) hc hrid
    exact hrc ▸ List.find?_some hr

end Lists

/-! ### The index module that is written -/

/-- The last step writes this index module, and then keeps the modules of these locales. It fails only
if the disk does. -/
def FinishesWith (dir : OutputDirectory) (e : Emission) (program : Program) (ids : List String) :
    Prop :=
  ∀ d', (∃ files e', Gives (finishModules dir) e files e' ∧ e'.disk = d') ↔
    ∃ d removed, dir.write e.disk indexName program.text = (.ok (), d) ∧
      dir.cleanUp d (indexName :: ids.map e.options.moduleName) = (.ok removed, d')

lemma finishesWith_indexOf {dir : OutputDirectory} {e : Emission} {reports : Reports}
    (he : e.modules.reports = some reports)
    (hnames : ∀ l ∈ e.modules.locales, l.fileName = e.options.moduleName l.id) :
    FinishesWith dir e (indexOf e reports)
      ((e.modules.locales.mergeSort (fun a b => a.id ≤ b.id)).map CompiledLocale.id) := by
  have hkeep : ((e.modules.locales.mergeSort (fun a b => a.id ≤ b.id)).map CompiledLocale.id).map
      e.options.moduleName =
        (e.modules.locales.mergeSort (fun a b => a.id ≤ b.id)).map CompiledLocale.fileName := by
    rw [List.map_map]
    exact List.map_congr_left fun l hl => (hnames l (List.mem_mergeSort.1 hl)).symm
  intro d'
  rw [hkeep]
  constructor
  · rintro ⟨files, e', h, rfl⟩
    obtain ⟨reports', d, removed, d', he', hd, hclean, -, rfl⟩ := gives_finishModules_iff.1 h
    cases he.symm.trans he'
    exact ⟨d, removed, hd, hclean⟩
  · rintro ⟨d, removed, hd, hclean⟩
    exact ⟨_, _, gives_finishModules_iff.2 ⟨reports, d, removed, d', he, hd, hclean, rfl, rfl⟩, rfl⟩

section Compiled

variable {reports : Reports} {compiled : List (Catalog × String)} {path : Path} {e₀ e₁ e₂ : Emission}
  {files : List EmittedFile} (hpath : e₀.options.modulesDir = some path)
  (hfresh : e₀.modules.locales = []) (hstart : Gives (start reports) e₀ () e₁)
  (hcompile : Gives (compileAll compiled) e₁ files e₂)
include hpath hfresh hstart hcompile

/-- What is noted after all catalogs have been compiled. -/
lemma noted_compileAll : e₂.options = e₀.options ∧ e₂.modules.reports = some reports ∧
    e₂.modules.locales = (compiled.map Prod.fst).map (.ofCatalog e₀.options) := by
  have hstarted := started_start (by simp [hpath]) hstart
  have hnotes := notes_compileAll (by simp [hstarted.options, hpath]) hcompile
  refine ⟨hnotes.options.trans hstarted.options, hnotes.reports.trans hstarted.reports, ?_⟩
  rw [hnotes.locales, hstarted.locales, hstarted.options, hfresh, List.map_map]
  rfl

theorem lists_indexOf {catalogs : List Catalog} (hids : (catalogs.map Catalog.id).Nodup)
    (hcompiled : (compiled.map Prod.fst).Perm catalogs) {listing : IndexListing}
    (hlisting : readIndex (indexOf e₂ reports) = some listing) : Lists e₀.options catalogs listing := by
  obtain ⟨hoptions, -, hlocales⟩ := noted_compileAll hpath hfresh hstart hcompile
  unfold indexOf at hlisting
  rw [hoptions] at hlisting
  refine lists_of_perm hids ?_ hlisting
  rw [hlocales]
  exact hcompiled.map _

end Compiled

/-- **What the index module tells.** Once catalogs have been checked, and compiled in any order, the
index module lists each of them once, in the order of their names. The default is the reference of the
report, which is the first catalog that is marked, and it is among those listed. Every marked catalog is
imported right away if that is wanted, so that the reference alone is imported exactly if no two
catalogs are marked. -/
theorem index_lists_catalogs {catalogs : List Catalog} (hids : (catalogs.map Catalog.id).Nodup)
    {reports : Reports} (hreports : (checkCatalogs catalogs).reports = some reports)
    {compiled : List (Catalog × String)} (hcompiled : (compiled.map Prod.fst).Perm catalogs)
    {path : Path} {e₀ e₁ e₂ : Emission} {files : List EmittedFile}
    (hpath : e₀.options.modulesDir = some path) (hfresh : e₀.modules.locales = [])
    (hstart : Gives (start reports) e₀ () e₁) (hcompile : Gives (compileAll compiled) e₁ files e₂) :
    ∃ listing, readIndex (indexOf e₂ reports) = some listing ∧
      FinishesWith ⟨path, .modules⟩ e₂ (indexOf e₂ reports) (listing.locales.map Prod.fst) ∧
      Lists e₀.options catalogs listing ∧
      listing.reference = reports.coverage.reference ∧
      listing.reference = (referenceOf catalogs).map Catalog.id ∧
      (∀ id, listing.reference = some id → id ∈ listing.locales.map Prod.fst) ∧
      (ReferenceAlone e₀.options listing ↔
        (e₀.options.staticReference = true → catalogs.countP Catalog.isReference ≤ 1)) := by
  obtain ⟨hoptions, he, hlocales⟩ := noted_compileAll hpath hfresh hstart hcompile
  obtain ⟨listing, hlisting, hsame, hnames⟩ := exists_readIndex_indexOf e₂ reports
  have hlists := lists_indexOf hpath hfresh hstart hcompile hids hcompiled hlisting
  have hreference := hsame.trans (reference_coverage hids hreports)
  refine ⟨listing, hlisting, ?_, hlists, hsame, hreference, fun id hid => ?_,
    hlists.referenceAlone_iff hids hreference⟩
  · rw [hnames]
    refine finishesWith_indexOf he fun l hl => ?_
    rw [hlocales] at hl
    obtain ⟨catalog, -, rfl⟩ := List.mem_map.1 hl
    rw [hoptions]
    rfl
  · obtain ⟨r, hr, rfl⟩ := Option.map_eq_some_iff.1 (hreference.symm.trans hid)
    have hlisted := (hlists.mem_locales_iff _ _).2 ⟨r, List.mem_of_find?_eq_some hr, rfl, rfl⟩
    exact List.mem_map_of_mem hlisted

/-- A second locale that claims to be the reference. -/
def claimingLocale : Catalog := plainLocale "de" [.reference] ["title", "bye"] []

/-- The locales are compiled in the other order than they are checked in. -/
def claimingFiles : List (Catalog × String) :=
  [(claimingLocale, "de.msg"), (englishLocale, "en.msg")]

lemma perm_claimingFiles : (claimingFiles.map Prod.fst).Perm [englishLocale, claimingLocale] :=
  List.Perm.swap _ _ _

lemma exists_run_claiming : ∃ reports e₁ e₂ files,
    (checkCatalogs [englishLocale, claimingLocale]).reports = some reports ∧
      Gives (start reports) { options := rootOptions, disk := ∅ } () e₁ ∧
      Gives (compileAll claimingFiles) e₁ files e₂ := by
  have hrun : (checkCatalogs [englishLocale, claimingLocale]).reports.map (fun reports =>
      ((do start reports; compileAll claimingFiles : Emitting _).run.run
        { options := rootOptions, disk := ∅ }).1.isOk) = some true := by
    decide +kernel
  obtain ⟨reports, hreports, hok⟩ := Option.map_eq_some_iff.1 hrun
  obtain ⟨files, e₂, h⟩ := exists_gives hok
  obtain ⟨_, e₁, hstart, hcompile⟩ := gives_bind_iff.1 h
  exact ⟨reports, e₁, e₂, files, hreports, hstart, hcompile⟩

/-- It need not be the reference alone that is imported right away. -/
theorem not_referenceAlone :
    ¬ ∀ catalogs : List Catalog, (catalogs.map Catalog.id).Nodup → ∀ reports,
      (checkCatalogs catalogs).reports = some reports → ∀ compiled : List (Catalog × String),
        (compiled.map Prod.fst).Perm catalogs → ∀ (path : Path) (e₀ e₁ e₂ : Emission) files,
          e₀.options.modulesDir = some path → e₀.modules.locales = [] →
          Gives (start reports) e₀ () e₁ → Gives (compileAll compiled) e₁ files e₂ →
            ∀ listing, readIndex (indexOf e₂ reports) = some listing →
              ReferenceAlone e₀.options listing := by
  intro h
  obtain ⟨reports, e₁, e₂, files, hreports, hstart, hcompile⟩ := exists_run_claiming
  have hids : ([englishLocale, claimingLocale].map Catalog.id).Nodup := by decide
  obtain ⟨listing, hlisting, hsame, -⟩ := exists_readIndex_indexOf e₂ reports
  have halone := h _ hids reports hreports _ perm_claimingFiles (.ofText "/") _ e₁ e₂ files rfl rfl
    hstart hcompile listing hlisting
  have hlists := lists_indexOf rfl rfl hstart hcompile hids perm_claimingFiles hlisting
  have hreference := hsame.trans (reference_coverage hids hreports)
  have hone := (hlists.referenceAlone_iff hids hreference).1 halone rfl
  exact absurd hone (by decide)

theorem index_lists_catalogs_claiming : ∃ reports e₁ e₂ files,
    (checkCatalogs [englishLocale, claimingLocale]).reports = some reports ∧
      Gives (start reports) { options := rootOptions, disk := ∅ } () e₁ ∧
      Gives (compileAll claimingFiles) e₁ files e₂ ∧
      ∃ listing, readIndex (indexOf e₂ reports) = some listing ∧
        (listing.locales.map Prod.fst).Pairwise (· < ·) ∧ listing.reference = some "en" ∧
        ("en", .static "en_Locale") ∈ listing.locales ∧
        ("de", .static "de_Locale") ∈ listing.locales := by
  obtain ⟨reports, e₁, e₂, files, hreports, hstart, hcompile⟩ := exists_run_claiming
  refine ⟨reports, e₁, e₂, files, hreports, hstart, hcompile, ?_⟩
  obtain ⟨listing, hlisting, -, hlists, -, hreference, -⟩ := index_lists_catalogs (by decide) hreports
    perm_claimingFiles rfl rfl hstart hcompile
  refine ⟨listing, hlisting, hlists.ordered, hreference, ?_, ?_⟩
  · exact (hlists.mem_locales_iff _ _).2 ⟨englishLocale, by simp, rfl, by decide +kernel⟩
  · exact (hlists.mem_locales_iff _ _).2 ⟨claimingLocale, by simp, rfl, by decide +kernel⟩

end Polyglot.Generate
