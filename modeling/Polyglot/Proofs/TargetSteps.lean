import Polyglot.Proofs.DiskChanges
import Polyglot.Proofs.Emitting
import Polyglot.Proofs.FileNames

/-!
# The steps of all targets

Both targets are started, compile each catalog and are finished, the one for modules first. What they
note depends on the catalogs and their order alone, and so does all that is written at the end.

* `runFiles`: the files that a run writes, by kind;
* `gives_directories`: the targets take their turns;
* `Begun`, `begun_start`: what is known once all targets have been started;
* `Compiled`, `compiled_compileAll`: what they have noted once all catalogs have been compiled;
* `gives_finishDeclarations_iff`: when the declaration file is written.
-/

namespace Polyglot.Generate

open Disk OutputDirectory

/-! ### The files of a run -/

/-- The modules of catalogs that are compiled one after the other, with their names. -/
def builtModules (o : TargetOptions) (reports : Reports) :
    CacheKeys → Supply → List (Catalog × String) → List (String × String)
  | _, _, [] => []
  | cacheKeys, supply, c :: cs =>
    let built := localeModule o reports c.1 c.2 cacheKeys supply
    (o.moduleName c.1.id, built.1) :: builtModules o reports built.2.1 built.2.2 cs

lemma map_fst_builtModules (o : TargetOptions) (reports : Reports) (cacheKeys : CacheKeys)
    (supply : Supply) (cs : List (Catalog × String)) :
    (builtModules o reports cacheKeys supply cs).map Prod.fst =
      cs.map fun c => o.moduleName c.1.id := by
  induction cs generalizing cacheKeys supply with
  | nil => rfl
  | cons c cs ih =>
    rw [List.map_cons, ← ih]
    rfl

/-- The index module for catalogs, each with the path of its file. -/
def indexText (o : TargetOptions) (reports : Reports) (cs : List (Catalog × String)) : String :=
  (indexProgram o reports ((cs.map Prod.snd).mergeSort (fun a b => a ≤ b))
    ((cs.map fun c => CompiledLocale.ofCatalog o c.1).mergeSort (fun a b => a.id ≤ b.id))).text

/-- The declaration file for catalogs, each with the path of its file. -/
def declarationText (o : TargetOptions) (reports : Reports) (cs : List (Catalog × String)) :
    String :=
  (declarationProgram o reports ((cs.map Prod.snd).mergeSort (fun a b => a ≤ b))).text

/-- The files that a run writes for one target, with their names. -/
def runFiles (o : TargetOptions) (reports : Reports) (supply : Supply)
    (cs : List (Catalog × String)) : OutputKind → List (String × String)
  | .modules => builtModules o reports [] supply cs ++ [(indexName, indexText o reports cs)]
  | .declarations => [(o.declarationName, declarationText o reports cs)]

lemma map_fst_runFiles_modules (o : TargetOptions) (reports : Reports) (supply : Supply)
    (cs : List (Catalog × String)) :
    (runFiles o reports supply cs .modules).map Prod.fst =
      cs.map (fun c => o.moduleName c.1.id) ++ [indexName] := by
  rw [runFiles, List.map_append, map_fst_builtModules]
  rfl

lemma map_fst_runFiles_declarations (o : TargetOptions) (reports : Reports) (supply : Supply)
    (cs : List (Catalog × String)) :
    (runFiles o reports supply cs .declarations).map Prod.fst = [o.declarationName] :=
  rfl

lemma owns_runFiles {o : TargetOptions} {reports : Reports} {supply : Supply}
    {cs : List (Catalog × String)} {k : OutputKind} {name : String}
    (h : name ∈ (runFiles o reports supply cs k).map Prod.fst) : k.owns name = true := by
  cases k with
  | modules =>
    rw [map_fst_runFiles_modules, List.mem_append, List.mem_map, List.mem_singleton] at h
    rcases h with ⟨c, -, rfl⟩ | rfl
    · exact o.owns_moduleName c.1.id
    · exact owns_indexName
  | declarations =>
    rw [List.mem_singleton.1 h]
    exact o.owns_declarationName

/-- The names of the files are shown as they are, and nothing else is shown like them. -/
lemma replacement_not_mem_runFiles {o : TargetOptions} {reports : Reports} {supply : Supply}
    {cs : List (Catalog × String)} (hinterface : isIdentifier o.interfaceName = true) {k : OutputKind}
    {name : String} (h : name ∈ (runFiles o reports supply cs k).map Prod.fst) :
    Glyph.replacement ∉ name.toList := by
  cases k with
  | modules =>
    rw [map_fst_runFiles_modules, List.mem_append, List.mem_map, List.mem_singleton] at h
    rcases h with ⟨c, -, rfl⟩ | rfl
    · exact o.not_mem_moduleName c.1.id (by decide) (by decide)
    · decide
  | declarations =>
    rw [List.mem_singleton.1 h]
    exact TargetOptions.not_mem_declarationName hinterface (by decide) (by decide)

/-- No two modules of a run have the same name. -/
lemma nodup_runFiles {o : TargetOptions} {reports : Reports} {supply : Supply}
    {cs : List (Catalog × String)} (hids : ∀ c ∈ cs, c.1.id ≠ "")
    (hnodup : (cs.map fun c => toIdentifier c.1.id).Nodup) (k : OutputKind) :
    ((runFiles o reports supply cs k).map Prod.fst).Nodup := by
  cases k with
  | modules =>
    have hmodules : (cs.map fun c => o.moduleName c.1.id).Nodup := by
      refine List.Nodup.map_on ?_ hnodup.of_map
      intro c hc c' hc' hsame
      refine List.inj_on_of_nodup_map hnodup hc hc' ?_
      exact o.moduleName_inj (hids c hc) (hids c' hc') hsame
    rw [map_fst_runFiles_modules]
    refine List.nodup_append.2 ⟨hmodules, List.nodup_singleton _, ?_⟩
    intro name hname index hindex heq
    obtain ⟨c, -, rfl⟩ := List.mem_map.1 hname
    rw [List.mem_singleton.1 hindex] at heq
    exact o.moduleName_ne_indexName c.1.id heq
  | declarations => exact List.nodup_singleton _

namespace Emitting

/-! ### Turns -/

lemma mem_directories_iff {o : TargetOptions} {dir : OutputDirectory} :
    dir ∈ directories o ↔ (∃ path, o.modulesDir = some path ∧ dir = ⟨path, .modules⟩) ∨
      ∃ path, o.declarationsDir = some path ∧ dir = ⟨path, .declarations⟩ := by
  unfold directories
  rw [List.mem_append, Option.mem_toList, Option.mem_toList, Option.map_eq_some_iff,
    Option.map_eq_some_iff]
  simp only [eq_comm]

lemma gives_gather_one {α : Type} {step : α → Emitting (List EmittedFile)} {a : α} {e e' : Emission}
    {files : List EmittedFile} : Gives (gather step [a]) e files e' ↔ Gives (step a) e files e' := by
  simp only [gather, gives_bind_iff, gives_pure_iff]
  constructor
  · rintro ⟨files, _, h, _, _, ⟨rfl, rfl⟩, rfl, rfl⟩
    rwa [List.append_nil]
  · intro h
    exact ⟨files, e', h, [], e', ⟨rfl, rfl⟩, (List.append_nil _).symm, rfl⟩

lemma gives_gather_append {α : Type} {step : α → Emitting (List EmittedFile)} {as bs : List α}
    {e e' : Emission} {files : List EmittedFile} :
    Gives (gather step (as ++ bs)) e files e' ↔ ∃ first between second,
      Gives (gather step as) e first between ∧ Gives (gather step bs) between second e' ∧
        files = first ++ second := by
  induction as generalizing e e' files with
  | nil => simp [gather, gives_pure_iff]
  | cons a as ih =>
    simp only [List.cons_append, gather, gives_bind_iff, gives_pure_iff, ih]
    constructor
    · rintro ⟨now, e₁, ha, _, _, ⟨first, between, second, has, hbs, rfl⟩, rfl, rfl⟩
      exact ⟨now ++ first, between, second, ⟨now, e₁, ha, first, between, has, rfl, rfl⟩, hbs,
        (List.append_assoc ..).symm⟩
    · rintro ⟨_, between, second, ⟨now, e₁, ha, first, _, has, rfl, rfl⟩, hbs, rfl⟩
      exact ⟨now, e₁, ha, first ++ second, e', ⟨first, between, second, has, hbs, rfl⟩,
        List.append_assoc .., rfl⟩

/-- The target for modules takes its turn first, then that for declarations. -/
lemma gives_directories {step : OutputDirectory → Emitting (List EmittedFile)} {o : TargetOptions}
    {e e' : Emission} {files : List EmittedFile} (h : Gives (gather step (directories o)) e files e') :
    ∃ first between second, files = first ++ second ∧
      (∀ path, o.modulesDir = some path → Gives (step ⟨path, .modules⟩) e first between) ∧
      (o.modulesDir = none → first = [] ∧ between = e) ∧
      (∀ path, o.declarationsDir = some path → Gives (step ⟨path, .declarations⟩) between second e') ∧
      (o.declarationsDir = none → second = [] ∧ e' = between) := by
  obtain ⟨first, between, second, hfirst, hsecond, rfl⟩ := gives_gather_append.1 h
  refine ⟨first, between, second, rfl, fun path hpath => ?_, fun hnone => ?_, fun path hpath => ?_,
    fun hnone => ?_⟩
  · rw [hpath] at hfirst
    exact gives_gather_one.1 hfirst
  · rw [hnone] at hfirst
    exact gives_pure_iff.1 hfirst
  · rw [hpath] at hsecond
    exact gives_gather_one.1 hsecond
  · rw [hnone] at hsecond
    exact gives_pure_iff.1 hsecond

/-- The targets have the reports and their directories, and nothing has been written or noted. -/
structure Begun (reports : Reports) (e e' : Emission) : Prop where
  options : e'.options = e.options
  supply : e'.supply = e.supply
  cacheKeys : e'.modules.cacheKeys = e.modules.cacheKeys
  sources : e'.modules.sources = e.modules.sources
  locales : e'.modules.locales = e.modules.locales
  declared : e'.declarations.sources = e.declarations.sources
  grows : Grows e.disk e'.disk
  modules : e.options.modulesDir ≠ none → e'.modules.reports = some reports
  declarations : e.options.declarationsDir ≠ none → e'.declarations.reports = some reports

theorem begun_start {reports : Reports} {e e' : Emission} {u : Unit}
    (h : Gives (start reports) e u e') : Begun reports e e' := by
  obtain ⟨_, _, hget, h⟩ := gives_bind_iff.1 h
  obtain ⟨rfl, rfl⟩ := gives_get_iff.1 hget
  obtain ⟨_, _, h, hend⟩ := gives_bind_iff.1 h
  obtain ⟨-, rfl⟩ := gives_pure_iff.1 hend
  obtain ⟨first, between, second, -, hmodules, hno, hdeclarations, hno'⟩ := gives_directories h
  simp only [startTarget, startModules, startDeclarations, create, gives_bind_iff, gives_modify_iff,
    gives_onDisk_iff, gives_pure_iff] at hmodules hdeclarations
  cases hm : e.options.modulesDir with
  | none =>
    obtain ⟨-, rfl⟩ := hno hm
    cases hd : between.options.declarationsDir with
    | none =>
      obtain ⟨-, rfl⟩ := hno' hd
      exact ⟨rfl, rfl, rfl, rfl, rfl, rfl, grows_refl _, (absurd hm ·), (absurd hd ·)⟩
    | some path =>
      obtain ⟨_, _, ⟨_, _, rfl, d, hcreate, rfl⟩, -, rfl⟩ := hdeclarations path hd
      exact ⟨rfl, rfl, rfl, rfl, rfl, rfl, grows_create hcreate, (absurd hm ·), fun _ => rfl⟩
  | some path =>
    obtain ⟨_, _, ⟨_, _, rfl, d, hcreate, rfl⟩, -, rfl⟩ := hmodules path hm
    cases hd : e.options.declarationsDir with
    | none =>
      obtain ⟨-, rfl⟩ := hno' hd
      exact ⟨rfl, rfl, rfl, rfl, rfl, rfl, grows_create hcreate, fun _ => rfl, (absurd hd ·)⟩
    | some path' =>
      obtain ⟨_, _, ⟨_, _, rfl, d', hcreate', rfl⟩, -, rfl⟩ := hdeclarations path' hd
      exact ⟨rfl, rfl, rfl, rfl, rfl, rfl, (grows_create hcreate).trans (grows_create hcreate'),
        fun _ => rfl, fun _ => rfl⟩

/-- The emission once the target for declarations has noted a catalog. -/
def declared (e : Emission) (source : String) : Emission :=
  { e with declarations := { e.declarations with sources := e.declarations.sources ++ [source] } }

lemma gives_compileFor_modules {catalog : Catalog} {source : String} {path : Path} {e e' : Emission}
    {files : List EmittedFile} :
    Gives (compileFor catalog source ⟨path, .modules⟩) e files e' ↔
      ∃ file, files = [file] ∧ Gives (compileModule ⟨path, .modules⟩ catalog source) e file e' := by
  simp only [compileFor, gives_bind_iff, gives_pure_iff]
  constructor
  · rintro ⟨file, _, h, rfl, rfl⟩
    exact ⟨file, rfl, h⟩
  · rintro ⟨file, rfl, h⟩
    exact ⟨file, e', h, rfl, rfl⟩

lemma gives_compileFor_declarations {catalog : Catalog} {source : String} {path : Path}
    {e e' : Emission} {files : List EmittedFile} :
    Gives (compileFor catalog source ⟨path, .declarations⟩) e files e' ↔
      files = [] ∧ e' = declared e source := by
  simp only [compileFor, compileDeclarations, gives_bind_iff, gives_modify_iff, gives_pure_iff]
  constructor
  · rintro ⟨_, _, rfl, rfl, rfl⟩
    exact ⟨rfl, rfl⟩
  · rintro ⟨rfl, rfl⟩
    exact ⟨(), _, rfl, rfl, rfl⟩

/-- What is noted as a catalog is compiled for all targets. -/
lemma gives_compile {catalog : Catalog} {source : String} {e e' : Emission}
    {files : List EmittedFile} (h : Gives (compile catalog source) e files e') :
    ∃ between,
      (∀ path, e.options.modulesDir = some path → ∃ file, files = [file] ∧
        Gives (compileModule ⟨path, .modules⟩ catalog source) e file between) ∧
      (e.options.modulesDir = none → files = [] ∧ between = e) ∧
      (e.options.declarationsDir ≠ none → e' = declared between source) ∧
      (e.options.declarationsDir = none → e' = between) := by
  obtain ⟨_, _, hget, h⟩ := gives_bind_iff.1 h
  obtain ⟨rfl, rfl⟩ := gives_get_iff.1 hget
  obtain ⟨first, between, second, rfl, hmodules, hno, hdeclarations, hno'⟩ := gives_directories h
  have hsecond : second = [] := by
    cases hd : e.options.declarationsDir with
    | none => exact (hno' hd).1
    | some path => exact (gives_compileFor_declarations.1 (hdeclarations path hd)).1
  rw [hsecond, List.append_nil]
  refine ⟨between, fun path hpath => ?_, hno, fun hsome => ?_, fun hnone => (hno' hnone).2⟩
  · exact gives_compileFor_modules.1 (hmodules path hpath)
  · obtain ⟨path, hpath⟩ := Option.ne_none_iff_exists'.1 hsome
    exact (gives_compileFor_declarations.1 (hdeclarations path hpath)).2

/-- Options and reports stay, and the targets note the catalogs in their order. -/
structure Compiled (cs : List (Catalog × String)) (e e' : Emission) : Prop where
  options : e'.options = e.options
  modules : e'.modules.reports = e.modules.reports
  declarations : e'.declarations.reports = e.declarations.reports
  sources : e.options.modulesDir ≠ none → e'.modules.sources = e.modules.sources ++ cs.map Prod.snd
  locales : e.options.modulesDir ≠ none →
    e'.modules.locales = e.modules.locales ++ cs.map fun c => .ofCatalog e.options c.1
  declared : e.options.declarationsDir ≠ none →
    e'.declarations.sources = e.declarations.sources ++ cs.map Prod.snd

lemma compiled_refl (e : Emission) : Compiled [] e e := by
  constructor <;> simp

lemma Compiled.trans {cs cs' : List (Catalog × String)} {e e' e'' : Emission}
    (h : Compiled cs e e') (h' : Compiled cs' e' e'') : Compiled (cs ++ cs') e e'' where
  options := h'.options.trans h.options
  modules := h'.modules.trans h.modules
  declarations := h'.declarations.trans h.declarations
  sources hdir := by
    rw [h'.sources (h.options.symm ▸ hdir), h.sources hdir, List.map_append, List.append_assoc]
  locales hdir := by
    rw [h'.locales (h.options.symm ▸ hdir), h.locales hdir, h.options, List.map_append,
      List.append_assoc]
  declared hdir := by
    rw [h'.declared (h.options.symm ▸ hdir), h.declared hdir, List.map_append, List.append_assoc]

lemma compiled_compile {catalog : Catalog} {source : String} {e e' : Emission}
    {files : List EmittedFile} (h : Gives (compile catalog source) e files e') :
    Compiled [(catalog, source)] e e' := by
  obtain ⟨between, hmodules, hno, hdeclarations, hno'⟩ := gives_compile h
  have hbetween : Compiled [(catalog, source)] e (declared between source) ∧
      (e.options.declarationsDir = none → Compiled [(catalog, source)] e between) := by
    cases hm : e.options.modulesDir with
    | none =>
      obtain ⟨-, rfl⟩ := hno hm
      exact ⟨⟨rfl, rfl, rfl, (absurd hm ·), (absurd hm ·), fun _ => rfl⟩,
        fun hd => ⟨rfl, rfl, rfl, (absurd hm ·), (absurd hm ·), (absurd hd ·)⟩⟩
    | some path =>
      obtain ⟨file, -, hcompile⟩ := hmodules path hm
      obtain ⟨reports, d, -, -, -, rfl⟩ := gives_compileModule_iff.1 hcompile
      exact ⟨⟨rfl, rfl, rfl, fun _ => rfl, fun _ => rfl, fun _ => rfl⟩,
        fun hd => ⟨rfl, rfl, rfl, fun _ => rfl, fun _ => rfl, (absurd hd ·)⟩⟩
  by_cases hd : e.options.declarationsDir = none
  · rw [hno' hd]
    exact hbetween.2 hd
  · rw [hdeclarations hd]
    exact hbetween.1

theorem compiled_compileAll {cs : List (Catalog × String)} {e e' : Emission}
    {files : List EmittedFile} (h : Gives (compileAll cs) e files e') : Compiled cs e e' := by
  induction cs generalizing e files with
  | nil =>
    obtain ⟨-, rfl⟩ := gives_pure_iff.1 h
    exact compiled_refl _
  | cons c cs ih =>
    obtain ⟨_, between, hc, h⟩ := gives_bind_iff.1 h
    obtain ⟨_, _, hcs, h⟩ := gives_bind_iff.1 h
    obtain ⟨-, rfl⟩ := gives_pure_iff.1 h
    exact (compiled_compile hc).trans (ih hcs)

/-- Without the target for modules nothing is written before the end. -/
lemma disk_compileAll {cs : List (Catalog × String)} {e e' : Emission} {files : List EmittedFile}
    (hdir : e.options.modulesDir = none) (h : Gives (compileAll cs) e files e') :
    files = [] ∧ e'.disk = e.disk := by
  induction cs generalizing e files with
  | nil =>
    obtain ⟨rfl, rfl⟩ := gives_pure_iff.1 h
    exact ⟨rfl, rfl⟩
  | cons c cs ih =>
    obtain ⟨_, between, hc, h⟩ := gives_bind_iff.1 h
    obtain ⟨_, _, hcs, h⟩ := gives_bind_iff.1 h
    obtain ⟨rfl, rfl⟩ := gives_pure_iff.1 h
    obtain ⟨e₁, -, hno, hdeclarations, hno'⟩ := gives_compile hc
    obtain ⟨rfl, rfl⟩ := hno hdir
    have hdisk : between.disk = e₁.disk := by
      by_cases hd : e₁.options.declarationsDir = none
      · rw [hno' hd]
      · rw [hdeclarations hd]
        rfl
    obtain ⟨rfl, hsame⟩ := ih ((compiled_compile hc).options.symm ▸ hdir) hcs
    exact ⟨rfl, hsame.trans hdisk⟩

/-- The declaration file is written if the target was started and the disk allows it, and those of
earlier runs can be removed. -/
theorem gives_finishDeclarations_iff {o : OutputDirectory} {e e' : Emission}
    {files : List EmittedFile} :
    Gives (finishDeclarations o) e files e' ↔
      ∃ reports d removed d', e.declarations.reports = some reports ∧
        o.write e.disk e.options.declarationName (declarationProgram e.options reports
          (e.declarations.sources.mergeSort (fun a b => a ≤ b))).text = (.ok (), d) ∧
        o.cleanUp d [e.options.declarationName] = (.ok removed, d') ∧
        files = [⟨.declarations, e.options.declarationName, 0, reports.coverage.keys.size⟩] ∧
        e' = { e with disk := d' } := by
  simp only [finishDeclarations, write, cleanUp, gives_bind_iff, gives_get_iff,
    gives_needReports_iff, gives_onDisk_iff, gives_pure_iff]
  constructor
  · rintro ⟨_, _, ⟨rfl, rfl⟩, reports, _, ⟨hreports, rfl⟩, _, _, ⟨d, hd, rfl⟩, removed, _,
      ⟨d', hd', rfl⟩, rfl, rfl⟩
    exact ⟨reports, d, removed, d', hreports, hd, hd', rfl, rfl⟩
  · rintro ⟨reports, d, removed, d', hreports, hd, hd', rfl, rfl⟩
    exact ⟨e, e, ⟨rfl, rfl⟩, reports, e, ⟨hreports, rfl⟩, (), _, ⟨d, hd, rfl⟩, removed, _,
      ⟨d', hd', rfl⟩, rfl, rfl⟩

end Emitting

end Polyglot.Generate
