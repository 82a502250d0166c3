import Polyglot.Generate.Targets
import Mathlib.Tactic.Lemma

/-!
# The steps of the target for modules

Steps may fail, and a step that fails still changes the emission. What matters for the files is when
a step gives a result, and what it then leaves behind. The target for declarations may take its turns
in between; it does not touch what the target for modules has noted.

* `Gives`: a step gives a result; `gives_bind_iff` takes a step apart;
* `gives_compileModule_iff`: when the module of a catalog is written;
* `Started`, `started_start`: what is known once all targets have been started;
* `Notes`, `notes_compileAll`: what is noted as catalogs are compiled for all targets;
* `gives_finishModules_iff`: when the index module is written.
-/

namespace Polyglot.Generate

/-- Of two steps the second begins where the first has ended, if that one has given a result. -/
lemma run_bind_eq_ok_iff {ε σ α β : Type} {x : ExceptT ε (StateM σ) α}
    {f : α → ExceptT ε (StateM σ) β} {s t : σ} {b : β} :
    (x >>= f).run.run s = (.ok b, t) ↔
      ∃ a between, x.run.run s = (.ok a, between) ∧ (f a).run.run between = (.ok b, t) := by
  rw [ExceptT.run_bind, StateT.run_bind]
  rcases x.run.run s with ⟨result, between⟩
  cases result with
  | ok a =>
    constructor
    · intro h
      exact ⟨a, between, rfl, h⟩
    · rintro ⟨_, _, ⟨⟩, h⟩
      exact h
  | error e =>
    constructor
    · rintro ⟨⟩
    · rintro ⟨_, _, ⟨⟩, _⟩

/-- What the index module is told of a catalog. -/
def CompiledLocale.ofCatalog (o : TargetOptions) (catalog : Catalog) : CompiledLocale :=
  ⟨catalog.id, o.className catalog.id, o.moduleName catalog.id, catalog.isReference⟩

/-- Options that ask for modules in the root directory. -/
def rootOptions : TargetOptions where
  modulesDir := some (.ofText "/")
  interfaceName := "Locale"
  selectorName := "locales"
  staticReference := true
  tool := "polyglot"

namespace Emitting

/-- The step gives a result, and leaves `after` behind. -/
def Gives {α : Type} (x : Emitting α) (before : Emission) (a : α) (after : Emission) : Prop :=
  x.run.run before = (.ok a, after)

section Basic

variable {α β : Type} {e e' : Emission}

lemma exists_gives {x : Emitting α} (h : (x.run.run e).1.isOk = true) : ∃ a e', Gives x e a e' := by
  unfold Gives
  rcases hx : x.run.run e with ⟨result, e'⟩
  rw [hx] at h
  cases result with
  | ok a => exact ⟨a, e', rfl⟩
  | error f => cases h

lemma gives_pure_iff {a b : α} : Gives (pure a) e b e' ↔ b = a ∧ e' = e := by
  show (Except.ok a, e) = (.ok b, e') ↔ _
  rw [Prod.mk.injEq, Except.ok.injEq]
  exact and_congr eq_comm eq_comm

/-- The second step begins where the first has ended. -/
lemma gives_bind_iff {x : Emitting α} {f : α → Emitting β} {b : β} :
    Gives (x >>= f) e b e' ↔ ∃ a between, Gives x e a between ∧ Gives (f a) between b e' :=
  run_bind_eq_ok_iff

lemma gives_get_iff {a : Emission} : Gives get e a e' ↔ e = a ∧ e = e' := by
  show (Except.ok e, e) = (.ok a, e') ↔ _
  rw [Prod.mk.injEq, Except.ok.injEq]

lemma gives_modify_iff {f : Emission → Emission} {u : Unit} :
    Gives (modify f) e u e' ↔ e' = f e := by
  show (Except.ok (), f e) = (.ok (), e') ↔ _
  rw [Prod.mk.injEq]
  exact (and_iff_right rfl).trans eq_comm

lemma gives_set_iff {a : Emission} {u : Unit} : Gives (set a) e u e' ↔ e' = a := by
  show (Except.ok (), a) = (.ok (), e') ↔ _
  rw [Prod.mk.injEq]
  exact (and_iff_right rfl).trans eq_comm

lemma gives_needReports_iff {reports? : Option Reports} {reports : Reports} :
    Gives (needReports reports?) e reports e' ↔ reports? = some reports ∧ e' = e := by
  cases reports? with
  | none =>
    constructor
    · rintro ⟨⟩
    · rintro ⟨⟨⟩, _⟩
  | some r =>
    rw [Option.some.injEq]
    exact gives_pure_iff.trans (and_congr_left' eq_comm)

lemma gives_onDisk_iff {act : Disk → Except Failure α × Disk} {a : α} :
    Gives (onDisk act) e a e' ↔ ∃ d, act e.disk = (.ok a, d) ∧ e' = { e with disk := d } := by
  unfold onDisk
  simp only [gives_bind_iff, gives_get_iff, gives_modify_iff]
  constructor
  · rintro ⟨_, _, ⟨rfl, rfl⟩, _, _, rfl, h⟩
    rcases hact : act e.disk with ⟨result, d⟩
    rw [hact] at h
    cases result with
    | ok b =>
      obtain ⟨rfl, rfl⟩ := gives_pure_iff.1 h
      exact ⟨d, rfl, rfl⟩
    | error f => cases h
  · rintro ⟨d, hact, rfl⟩
    refine ⟨e, e, ⟨rfl, rfl⟩, (), _, rfl, ?_⟩
    rw [hact]
    exact gives_pure_iff.2 ⟨rfl, rfl⟩

end Basic

/-! ### Locale modules -/

/-- The emission once the module of a catalog was written. -/
def noted (e : Emission) (reports : Reports) (catalog : Catalog) (source : String) (d : Disk) :
    Emission :=
  let built := localeModule e.options reports catalog source e.modules.cacheKeys e.supply
  { e with
    disk := d
    supply := built.2.2
    modules := { e.modules with
      cacheKeys := built.2.1
      sources := e.modules.sources ++ [source]
      locales := e.modules.locales ++ [.ofCatalog e.options catalog] } }

lemma gives_buildModule_iff {reports : Reports} {catalog : Catalog} {source text : String}
    {e e' : Emission} :
    Gives (buildModule reports catalog source) e text e' ↔
      text = (localeModule e.options reports catalog source e.modules.cacheKeys e.supply).1 ∧
        e' = { e with
          supply := (localeModule e.options reports catalog source e.modules.cacheKeys e.supply).2.2
          modules := { e.modules with cacheKeys :=
            (localeModule e.options reports catalog source e.modules.cacheKeys e.supply).2.1 } } := by
  unfold buildModule
  rw [gives_bind_iff]
  simp only [gives_get_iff]
  constructor
  · rintro ⟨_, _, ⟨rfl, rfl⟩, h⟩
    obtain ⟨_, _, hset, h⟩ := gives_bind_iff.1 h
    obtain ⟨rfl, rfl⟩ := gives_pure_iff.1 h
    exact ⟨rfl, gives_set_iff.1 hset⟩
  · rintro ⟨rfl, rfl⟩
    exact ⟨e, e, ⟨rfl, rfl⟩, gives_bind_iff.2
      ⟨(), _, gives_set_iff.2 rfl, gives_pure_iff.2 ⟨rfl, rfl⟩⟩⟩

/-- The module of a catalog is written if the target was started and the disk allows it. -/
theorem gives_compileModule_iff {o : OutputDirectory} {catalog : Catalog} {source : String}
    {e e' : Emission} {file : EmittedFile} :
    Gives (compileModule o catalog source) e file e' ↔
      ∃ reports d, e.modules.reports = some reports ∧
        o.write e.disk (e.options.moduleName catalog.id)
          (localeModule e.options reports catalog source e.modules.cacheKeys e.supply).1 = (.ok (), d) ∧
        file = ⟨.modules, e.options.moduleName catalog.id,
          (reports.coverage.missingKeys catalog.id).length, reports.coverage.keys.size⟩ ∧
        e' = noted e reports catalog source d := by
  simp only [compileModule, noteModule, write, gives_bind_iff, gives_get_iff, gives_needReports_iff,
    gives_buildModule_iff, gives_onDisk_iff, gives_modify_iff, gives_pure_iff]
  constructor
  · rintro ⟨_, _, ⟨rfl, rfl⟩, reports, _, ⟨hreports, rfl⟩, _, _, ⟨rfl, rfl⟩, _, _, ⟨rfl, rfl⟩, _, _,
      ⟨d, hd, rfl⟩, _, _, rfl, rfl, rfl⟩
    exact ⟨reports, d, hreports, hd, rfl, rfl⟩
  · rintro ⟨reports, d, hreports, hd, rfl, rfl⟩
    exact ⟨e, e, ⟨rfl, rfl⟩, reports, e, ⟨hreports, rfl⟩, _, _, ⟨rfl, rfl⟩, _, _, ⟨rfl, rfl⟩, (), _,
      ⟨d, hd, rfl⟩, (), _, rfl, rfl, rfl⟩

/-! ### Runs -/

/-- All that the index module depends on, except the paths of the message files: options and reports
stay, and some locales are noted. -/
structure Notes (e : Emission) (locales : List CompiledLocale) (e' : Emission) : Prop where
  options : e'.options = e.options
  reports : e'.modules.reports = e.modules.reports
  locales : e'.modules.locales = e.modules.locales ++ locales

lemma notes_refl (e : Emission) : Notes e [] e :=
  ⟨rfl, rfl, (List.append_nil _).symm⟩

lemma Notes.trans {e e' e'' : Emission} {locales more : List CompiledLocale} (h : Notes e locales e')
    (h' : Notes e' more e'') : Notes e (locales ++ more) e'' where
  options := h'.options.trans h.options
  reports := h'.reports.trans h.reports
  locales := by rw [h'.locales, h.locales, List.append_assoc]

/-- Steps that are done in order note their locales in order. -/
lemma notes_gather {α : Type} {step : α → Emitting (List EmittedFile)} {o : TargetOptions}
    {locales : α → List CompiledLocale}
    (hstep : ∀ a e files e', e.options = o → Gives (step a) e files e' → Notes e (locales a) e')
    {as : List α} {e e' : Emission} {files : List EmittedFile} (ho : e.options = o)
    (h : Gives (gather step as) e files e') : Notes e (as.flatMap locales) e' := by
  induction as generalizing e files with
  | nil =>
    obtain ⟨-, rfl⟩ := gives_pure_iff.1 h
    exact notes_refl _
  | cons a as ih =>
    obtain ⟨_, between, ha, h⟩ := gives_bind_iff.1 h
    obtain ⟨_, _, has, h⟩ := gives_bind_iff.1 h
    obtain ⟨-, rfl⟩ := gives_pure_iff.1 h
    have hnotes := hstep a e _ between ho ha
    rw [List.flatMap_cons]
    exact hnotes.trans (ih (hnotes.options.trans ho) has)

/-- Only the target for modules takes note of a catalog. -/
lemma notes_compileFor {catalog : Catalog} {source : String} {dir : OutputDirectory}
    {e e' : Emission} {files : List EmittedFile}
    (h : Gives (compileFor catalog source dir) e files e') :
    Notes e (if dir.kind = .modules then [.ofCatalog e.options catalog] else []) e' := by
  unfold compileFor at h
  cases hkind : dir.kind with
  | modules =>
    rw [hkind] at h
    obtain ⟨_, _, hcompile, h⟩ := gives_bind_iff.1 h
    obtain ⟨-, rfl⟩ := gives_pure_iff.1 h
    obtain ⟨reports, d, -, -, -, rfl⟩ := gives_compileModule_iff.1 hcompile
    exact ⟨rfl, rfl, rfl⟩
  | declarations =>
    rw [hkind] at h
    obtain ⟨_, _, hnote, h⟩ := gives_bind_iff.1 h
    obtain ⟨-, rfl⟩ := gives_pure_iff.1 h
    cases gives_modify_iff.1 hnote
    exact ⟨rfl, rfl, (List.append_nil _).symm⟩

/-- A catalog that is compiled for all targets is noted once. -/
lemma notes_compile {catalog : Catalog} {source : String} {e e' : Emission} {files : List EmittedFile}
    (hdir : e.options.modulesDir ≠ none) (h : Gives (compile catalog source) e files e') :
    Notes e [.ofCatalog e.options catalog] e' := by
  obtain ⟨_, _, hget, h⟩ := gives_bind_iff.1 h
  obtain ⟨rfl, rfl⟩ := gives_get_iff.1 hget
  have hnotes := notes_gather (fun dir e _ e' ho hdir => ho ▸ notes_compileFor hdir) rfl h
  obtain ⟨path, hpath⟩ := Option.ne_none_iff_exists'.1 hdir
  unfold directories at hnotes
  rw [hpath] at hnotes
  cases hdeclarations : e.options.declarationsDir with
  | none => simpa [hdeclarations] using hnotes
  | some path' => simpa [hdeclarations] using hnotes

/-- The catalogs are noted in the order in which they are compiled. -/
theorem notes_compileAll {catalogs : List (Catalog × String)} {e e' : Emission}
    {files : List EmittedFile} (hdir : e.options.modulesDir ≠ none)
    (h : Gives (compileAll catalogs) e files e') :
    Notes e (catalogs.map fun c => .ofCatalog e.options c.1) e' := by
  rw [List.map_eq_flatMap]
  exact notes_gather (fun c _ _ _ ho hc => ho ▸ notes_compile (ho ▸ hdir) hc) rfl h

/-- The target for modules has the reports, and has noted no locale since `e`. -/
structure Started (reports : Reports) (e e' : Emission) : Prop where
  options : e'.options = e.options
  reports : e'.modules.reports = some reports
  locales : e'.modules.locales = e.modules.locales

lemma started_startModules {reports : Reports} {dir : OutputDirectory} {e e' : Emission} {u : Unit}
    (h : Gives (startModules dir reports) e u e') : Started reports e e' := by
  obtain ⟨_, _, hnote, h⟩ := gives_bind_iff.1 h
  cases gives_modify_iff.1 hnote
  obtain ⟨d, -, rfl⟩ := gives_onDisk_iff.1 h
  exact ⟨rfl, rfl, rfl⟩

lemma Started.startDeclarations {reports : Reports} {dir : OutputDirectory} {e between e' : Emission}
    {u : Unit} (hstarted : Started reports e between)
    (h : Gives (startDeclarations dir reports) between u e') : Started reports e e' := by
  obtain ⟨_, _, hnote, h⟩ := gives_bind_iff.1 h
  cases gives_modify_iff.1 hnote
  obtain ⟨d, -, rfl⟩ := gives_onDisk_iff.1 h
  exact ⟨hstarted.options, hstarted.reports, hstarted.locales⟩

theorem started_start {reports : Reports} {e e' : Emission} {u : Unit}
    (hdir : e.options.modulesDir ≠ none) (h : Gives (start reports) e u e') :
    Started reports e e' := by
  obtain ⟨_, _, hget, h⟩ := gives_bind_iff.1 h
  obtain ⟨rfl, rfl⟩ := gives_get_iff.1 hget
  obtain ⟨_, _, h, hend⟩ := gives_bind_iff.1 h
  obtain ⟨-, rfl⟩ := gives_pure_iff.1 hend
  obtain ⟨path, hpath⟩ := Option.ne_none_iff_exists'.1 hdir
  rw [directories, hpath] at h
  -- The target for modules comes first, and that for declarations second if it is wanted.
  cases hdeclarations : e.options.declarationsDir with
  | none =>
    rw [hdeclarations] at h
    simp only [Option.map_some, Option.map_none, Option.toList_some, Option.toList_none,
      List.append_nil, gather, startTarget, gives_bind_iff, gives_pure_iff] at h
    obtain ⟨_, _, ⟨_, _, hmodules, -, rfl⟩, _, _, ⟨-, rfl⟩, -, rfl⟩ := h
    exact started_startModules hmodules
  | some path' =>
    rw [hdeclarations] at h
    simp only [Option.map_some, Option.toList_some, List.singleton_append, gather, startTarget,
      gives_bind_iff, gives_pure_iff] at h
    obtain ⟨_, _, ⟨_, _, hmodules, -, rfl⟩, _, _, ⟨_, _, ⟨_, _, hdecl, -, rfl⟩, _, _, ⟨-, rfl⟩, -, rfl⟩,
      -, rfl⟩ := h
    exact (started_startModules hmodules).startDeclarations hdecl

/-! ### The index module -/

/-- The index module that is written at the end. -/
def indexOf (e : Emission) (reports : Reports) : Script.Program :=
  indexProgram e.options reports (e.modules.sources.mergeSort (fun a b => a ≤ b))
    (e.modules.locales.mergeSort (fun a b => a.id ≤ b.id))

/-- The index module is written if the target was started and the disk allows it, and the files of
earlier runs can be removed. -/
theorem gives_finishModules_iff {o : OutputDirectory} {e e' : Emission} {files : List EmittedFile} :
    Gives (finishModules o) e files e' ↔
      ∃ reports d removed d', e.modules.reports = some reports ∧
        o.write e.disk indexName (indexOf e reports).text = (.ok (), d) ∧
        o.cleanUp d (indexName :: (e.modules.locales.mergeSort (fun a b => a.id ≤ b.id)).map
          (·.fileName)) = (.ok removed, d') ∧
        files = [⟨.modules, indexName, 0, 0⟩] ∧
        e' = { e with disk := d', modules := { e.modules with sources := [], locales := [] } } := by
  simp only [finishModules, write, cleanUp, gives_bind_iff, gives_get_iff, gives_needReports_iff,
    gives_set_iff, gives_onDisk_iff, gives_pure_iff]
  constructor
  · rintro ⟨_, _, ⟨rfl, rfl⟩, reports, _, ⟨hreports, rfl⟩, _, _, rfl, _, _, ⟨d, hd, rfl⟩, removed, _,
      ⟨d', hd', rfl⟩, rfl, rfl⟩
    exact ⟨reports, d, removed, d', hreports, hd, hd', rfl, rfl⟩
  · rintro ⟨reports, d, removed, d', hreports, hd, hd', rfl, rfl⟩
    exact ⟨e, e, ⟨rfl, rfl⟩, reports, e, ⟨hreports, rfl⟩, (), _, rfl, (), _, ⟨d, hd, rfl⟩, removed, _,
      ⟨d', hd', rfl⟩, rfl, rfl⟩

end Emitting

end Polyglot.Generate
