import Polyglot.Proofs.Coverage
import Polyglot.Proofs.TargetSteps

/-!
# The files that a run leaves

A run writes its files into the output directories and removes those of earlier runs. In each of these
directories it leaves exactly its own files of the kind that belongs there, and it touches nothing
else, whether the directories are one or two.

* `Wrote`: files have been written into a directory;
* `Replaces`: files have taken the place of all that belong to a directory, with `Wrote.replaces`;
* `wrote_compileAll`, `replaces_finishModules`, `replaces_finishDeclarations`: what the steps of a run
  do to the disk;
* `run_leaves_own_files`: the main statement.
-/

namespace Polyglot

namespace OutputDirectory

open Disk

/-- Files with these names and texts have been written into the directory at a place. One is left of
those that have the same name. Nothing else has changed. -/
structure Wrote (place : Trail) (files : List (String × String)) (d d' : Disk) : Prop where
  current : d'.current = d.current
  directory_iff : ∀ q, d.standing q = .directory ↔ d'.standing q = .directory
  written : ∀ name ∈ files.map Prod.fst, ∃ text q, (name, text) ∈ files ∧
    Holds place (.ofText name) q ∧ d'.standing q = .file (.text text)
  other : ∀ q, (∀ name ∈ files.map Prod.fst, ¬ Holds place (.ofText name) q) →
    d'.standing q = d.standing q

lemma wrote_nil (place : Trail) (d : Disk) : Wrote place [] d d where
  current := rfl
  directory_iff _ := Iff.rfl
  written := by simp
  other _ _ := rfl

lemma wrote_of_puts {place q : Trail} {name text : String} {d d' : Disk}
    (hq : Holds place (.ofText name) q) (h : Puts d q (.file (.text text)) d') :
    Wrote place [(name, text)] d d' where
  current := h.current
  directory_iff := h.directory_iff (by simp)
  written := by
    intro a ha
    rw [List.mem_singleton.1 ha]
    exact ⟨text, q, List.mem_singleton.2 rfl, hq, h.standing_self⟩
  other := by
    intro q' hq'
    refine h.standing_of_ne fun heq => ?_
    exact hq' name (List.mem_singleton.2 rfl) (heq ▸ hq)

lemma Wrote.trans {place : Trail} {files more : List (String × String)} {d d' d'' : Disk}
    (h : Wrote place files d d') (h' : Wrote place more d' d'') :
    Wrote place (files ++ more) d d'' where
  current := h'.current.trans h.current
  directory_iff q := (h.directory_iff q).trans (h'.directory_iff q)
  written := by
    intro name hname
    by_cases hmore : name ∈ more.map Prod.fst
    · obtain ⟨text, q, hmem, hq, hfile⟩ := h'.written name hmore
      exact ⟨text, q, List.mem_append_right _ hmem, hq, hfile⟩
    · rw [List.map_append, List.mem_append, or_iff_left hmore] at hname
      obtain ⟨text, q, hmem, hq, hfile⟩ := h.written name hname
      refine ⟨text, q, List.mem_append_left _ hmem, hq, ?_⟩
      rw [h'.other, hfile]
      intro a ha hqa
      have hsame : name = a := RawText.ofText_injective (hq.name_unique hqa)
      exact hmore (hsame ▸ ha)
  other := by
    intro q hq
    rw [h'.other q fun name hname => hq name (by simp_all), h.other q fun name hname => hq name (by simp_all)]

/-- In the directory at a place, these are all files that belong to the kind. -/
def OwnsExactly (kind : OutputKind) (d : Disk) (place : Trail) (files : List (String × String)) : Prop :=
  ∀ (name : FileName) contents,
    kind.owns name.shown = true ∧ d.standing (place ++ [name]) = .file contents ↔
      ∃ file text, (file, text) ∈ files ∧ name.bytes = .ofText file ∧ contents = .text text

/-- These files are all that belong to the directory, and nothing else has changed. -/
structure Replaces (o : OutputDirectory) (place : Trail) (files : List (String × String))
    (d d' : Disk) : Prop where
  current : d'.current = d.current
  directory_iff : ∀ q, d.standing q = .directory ↔ d'.standing q = .directory
  own : OwnsExactly o.kind d' place files
  other : ∀ q, (∀ name : FileName, o.kind.owns name.shown = true → q ≠ place ++ [name]) →
    d'.standing q = d.standing q

lemma standing_ext {d d' : Disk} {q : Trail}
    (hdirectory : d'.standing q = .directory ↔ d.standing q = .directory)
    (hfile : ∀ contents, d'.standing q = .file contents ↔ d.standing q = .file contents) :
    d'.standing q = d.standing q := by
  cases h : d.standing q with
  | directory => exact hdirectory.2 h
  | file contents => exact (hfile contents).2 h
  | nothing =>
    cases h' : d'.standing q with
    | nothing => rfl
    | directory => cases h.symm.trans (hdirectory.1 h')
    | file contents => cases h.symm.trans ((hfile contents).1 h')

/-- A file with this name has been written, and no other is shown by the same name. -/
lemma Wrote.standing_iff {place : Trail} {files : List (String × String)} {d d' : Disk}
    (h : Wrote place files d d') (hnodup : (files.map Prod.fst).Nodup)
    (hplain : ∀ name ∈ files.map Prod.fst, Glyph.replacement ∉ name.toList) {name : FileName}
    {contents : Contents} :
    d'.standing (place ++ [name]) = .file contents ∧ name.shown ∈ files.map Prod.fst ↔
      ∃ file text, (file, text) ∈ files ∧ name.bytes = .ofText file ∧ contents = .text text := by
  constructor
  · rintro ⟨hcontents, hmem⟩
    obtain ⟨text, q, htext, hq, hwritten⟩ := h.written name.shown hmem
    have hbytes : name.bytes = .ofText name.shown := RawText.eq_ofText_of_shown (hplain _ hmem)
    rw [hq.unique (holds_concat_iff.2 hbytes), hcontents] at hwritten
    exact ⟨name.shown, text, htext, hbytes, Standing.file.inj hwritten⟩
  · rintro ⟨file, text, htext, hbytes, rfl⟩
    have hmem : file ∈ files.map Prod.fst := List.mem_map.2 ⟨_, htext, rfl⟩
    obtain ⟨text', q, htext', hq, hwritten⟩ := h.written file hmem
    have hsame := List.inj_on_of_nodup_map hnodup htext htext' rfl
    rw [hq.unique (holds_concat_iff.2 hbytes), ← (Prod.mk.inj hsame).2] at hwritten
    rw [FileName.shown_of_bytes hbytes]
    exact ⟨hwritten, hmem⟩

/-- **Files that are written and then kept take the place of all others.** -/
theorem Wrote.replaces {o : OutputDirectory} {place : Trail} {keep removed : List String}
    {files : List (String × String)} {d d₁ d' : Disk} (h : Wrote place files d d₁)
    (hat : o.At d place) (howns : ∀ name ∈ files.map Prod.fst, o.kind.owns name = true)
    (hplain : ∀ name ∈ files.map Prod.fst, Glyph.replacement ∉ name.toList)
    (hnodup : (files.map Prod.fst).Nodup) (hkeep : ∀ name, name ∈ keep ↔ name ∈ files.map Prod.fst)
    (hclean : o.cleanUp d₁ keep = (.ok removed, d')) : Replaces o place files d d' := by
  have hat₁ : o.At d₁ place := (At.congr h.current h.directory_iff).1 hat
  obtain ⟨hcurrent, hdirectory, hfile⟩ := standing_cleanUp hat₁ hclean
  have hstale : ∀ name : FileName, o.kind.owns name.shown = true →
      (¬ o.IsStale place keep (place ++ [name]) ↔ name.shown ∈ files.map Prod.fst) := by
    intro name hname
    rw [← hkeep]
    constructor
    · intro hkept
      by_contra hne
      exact hkept ⟨name, rfl, hname, hne⟩
    · rintro hmem ⟨a, heq, -, hne⟩
      have ha : name = a := by simpa using heq
      exact hne (ha ▸ hmem)
  refine ⟨hcurrent.trans h.current, fun q => (h.directory_iff q).trans (hdirectory q).symm,
    fun name contents => ?_, fun q hq => ?_⟩
  · rw [← h.standing_iff hnodup hplain, hfile]
    constructor
    · rintro ⟨hname, hcontents, hkept⟩
      exact ⟨hcontents, (hstale name hname).1 hkept⟩
    · rintro ⟨hcontents, hmem⟩
      have hname := howns name.shown hmem
      exact ⟨hname, hcontents, (hstale name hname).2 hmem⟩
  · have hsame : d₁.standing q = d.standing q := by
      refine h.other q ?_
      rintro name hname ⟨n, hbytes, heq⟩
      exact hq n (by rw [FileName.shown_of_bytes hbytes]; exact howns name hname) heq
    rw [← hsame]
    refine standing_ext (hdirectory q) fun contents => ?_
    rw [hfile]
    refine and_iff_left ?_
    rintro ⟨name, rfl, hname, -⟩
    exact hq name hname rfl

/-- The directory has these files, and no others that belong to it. -/
def HoldsExactly (o : OutputDirectory) (d : Disk) (files : List (String × String)) : Prop :=
  ∃ place, d.resolve o.path = .ok place ∧ d.standing place = .directory ∧
    OwnsExactly o.kind d place files

/-- The place of a file that belongs to the directory. -/
def Covers (o : OutputDirectory) (d : Disk) (q : Trail) : Prop :=
  ∃ (place : Trail) (name : FileName), d.resolve o.path = .ok place ∧
    o.kind.owns name.shown = true ∧ q = place ++ [name]

end OutputDirectory

namespace Generate

open OutputDirectory Disk Coverage

namespace Emitting

/-! ### The steps of a run -/

/-- The module of a catalog is written into the directory of the modules. -/
lemma wrote_compile {catalog : Catalog} {source : String} {path : Path} {reports : Reports}
    {e e' : Emission} {files : List EmittedFile} {place : Trail}
    (hdir : e.options.modulesDir = some path) (hreports : e.modules.reports = some reports)
    (h : Gives (compile catalog source) e files e')
    (hat : OutputDirectory.At ⟨path, .modules⟩ e'.disk place) :
    let built := localeModule e.options reports catalog source e.modules.cacheKeys e.supply
    Wrote place [(e.options.moduleName catalog.id, built.1)] e.disk e'.disk ∧
      e'.modules.cacheKeys = built.2.1 ∧ e'.supply = built.2.2 ∧
      files.map (fun f => (f.kind, f.name)) = [(.modules, e.options.moduleName catalog.id)] := by
  intro built
  obtain ⟨between, hmodules, -, hdeclarations, hno⟩ := gives_compile h
  obtain ⟨file, rfl, hcompile⟩ := hmodules path hdir
  obtain ⟨reports', d, hreports', hwrite, rfl, rfl⟩ := gives_compileModule_iff.1 hcompile
  cases hreports.symm.trans hreports'
  have hsame : e'.disk = d ∧ e'.modules.cacheKeys = built.2.1 ∧ e'.supply = built.2.2 := by
    by_cases hd : e.options.declarationsDir = none
    · rw [hno hd]
      exact ⟨rfl, rfl, rfl⟩
    · rw [hdeclarations hd]
      exact ⟨rfl, rfl, rfl⟩
  obtain ⟨rfl, hkeys, hsupply⟩ := hsame
  obtain ⟨place', q, hat', hq, hputs⟩ := puts_of_write (e.options.isSegment_moduleName _) hwrite
  cases ((At.puts hputs (by simp)).1 hat').unique hat
  exact ⟨wrote_of_puts hq hputs, hkeys, hsupply, rfl⟩

/-- **The modules of all catalogs are written.** -/
theorem wrote_compileAll {cs : List (Catalog × String)} {path : Path} {reports : Reports}
    {e e' : Emission} {files : List EmittedFile} {place : Trail}
    (hdir : e.options.modulesDir = some path) (hreports : e.modules.reports = some reports)
    (h : Gives (compileAll cs) e files e')
    (hat : OutputDirectory.At ⟨path, .modules⟩ e'.disk place) :
    Wrote place (builtModules e.options reports e.modules.cacheKeys e.supply cs) e.disk e'.disk ∧
      files.map (fun f => (f.kind, f.name)) =
        cs.map fun c => (.modules, e.options.moduleName c.1.id) := by
  induction cs generalizing e files with
  | nil =>
    obtain ⟨rfl, rfl⟩ := gives_pure_iff.1 h
    exact ⟨wrote_nil place _, rfl⟩
  | cons c cs ih =>
    obtain ⟨first, between, hc, h⟩ := gives_bind_iff.1 h
    obtain ⟨second, _, hcs, h⟩ := gives_bind_iff.1 h
    obtain ⟨rfl, rfl⟩ := gives_pure_iff.1 h
    have hcompiled := compiled_compile hc
    -- The directory is where it will be at the end, since writing makes no directory.
    obtain ⟨hrest, hnames⟩ := ih (by rw [hcompiled.options, hdir])
      (by rw [hcompiled.modules, hreports]) hcs
    have hat₁ := (At.congr hrest.current hrest.directory_iff).2 hat
    obtain ⟨hfirst, hkeys, hsupply, hname⟩ := wrote_compile hdir hreports hc hat₁
    rw [hcompiled.options, hkeys, hsupply] at hrest
    rw [hcompiled.options] at hnames
    exact ⟨hfirst.trans hrest, by rw [List.map_append, hname, hnames]; rfl⟩

section Finish

variable {o : TargetOptions} {reports : Reports} {d : Disk} {supply : Supply}
  {cs : List (Catalog × String)} {e₁ e₂ e₃ : Emission} {files more : List EmittedFile}

/-- **The target for modules replaces its files.** -/
theorem replaces_finishModules (hids : ∀ c ∈ cs, c.1.id ≠ "")
    (hnodup : (cs.map fun c => toIdentifier c.1.id).Nodup)
    (hinterface : isIdentifier o.interfaceName = true) {path : Path} (hdir : o.modulesDir = some path)
    (hbegun : Begun reports { options := o, disk := d, supply } e₁)
    (hcompile : Gives (compileAll cs) e₁ files e₂)
    (hfinish : Gives (finishModules ⟨path, .modules⟩) e₂ more e₃) :
    path.Nameable ∧ ∃ place, OutputDirectory.At ⟨path, .modules⟩ e₃.disk place ∧
      Replaces ⟨path, .modules⟩ place (runFiles o reports supply cs .modules) e₁.disk e₃.disk ∧
      (files ++ more).map (fun f => (f.kind, f.name)) =
        ((runFiles o reports supply cs .modules).map Prod.fst).map (Prod.mk .modules) := by
  have hwanted : o.modulesDir ≠ none := by rw [hdir]; simp
  have hcompiled := compiled_compileAll hcompile
  have hreports : e₁.modules.reports = some reports := hbegun.modules hwanted
  have hoptions : e₂.options = o := hcompiled.options.trans hbegun.options
  have hdir₁ : e₁.options.modulesDir = some path := by rw [hbegun.options, hdir]
  have hsources : e₂.modules.sources = cs.map Prod.snd := by
    rw [hcompiled.sources (by rw [hdir₁]; simp), hbegun.sources]
    rfl
  have hlocales : e₂.modules.locales = cs.map fun c => CompiledLocale.ofCatalog o c.1 := by
    rw [hcompiled.locales (by rw [hdir₁]; simp), hbegun.locales, hbegun.options]
    rfl
  obtain ⟨reports', d₂, removed, d₃, hreports', hwrite, hclean, rfl, rfl⟩ :=
    gives_finishModules_iff.1 hfinish
  cases hreports'.symm.trans (hcompiled.modules.trans hreports)
  obtain ⟨place, q, hat, hq, hputs⟩ := puts_of_write isSegment_indexName hwrite
  obtain ⟨hwrote, hwritten⟩ := wrote_compileAll hdir₁ hreports hcompile hat
  have hindex : (indexOf e₂ reports).text = indexText o reports cs := by
    rw [indexOf, hoptions, hsources, hlocales]
    rfl
  have hall : Wrote place (runFiles o reports supply cs .modules) e₁.disk d₂ := by
    rw [hindex] at hputs
    rw [hbegun.options, hbegun.cacheKeys, hbegun.supply] at hwrote
    exact hwrote.trans (wrote_of_puts hq hputs)
  have hkeep : ∀ name, name ∈ indexName ::
      (e₂.modules.locales.mergeSort (fun a b => a.id ≤ b.id)).map (·.fileName) ↔
        name ∈ (runFiles o reports supply cs .modules).map Prod.fst := by
    intro name
    simp only [map_fst_runFiles_modules, hlocales, List.mem_cons, List.mem_append, List.mem_map,
      List.mem_mergeSort, List.not_mem_nil, or_false, exists_exists_and_eq_and,
      CompiledLocale.ofCatalog]
    exact or_comm
  have hat₁ := (At.congr hwrote.current hwrote.directory_iff).2 hat
  have hreplaces := hall.replaces hat₁ (fun _ => owns_runFiles)
    (fun _ => replacement_not_mem_runFiles hinterface) (nodup_runFiles hids hnodup .modules) hkeep hclean
  refine ⟨nameable_of_cleanUp hclean, place,
    (At.congr hreplaces.current hreplaces.directory_iff).1 hat₁, hreplaces, ?_⟩
  rw [List.map_append, hwritten, hbegun.options, map_fst_runFiles_modules, List.map_append,
    List.map_map]
  rfl

/-- **The target for declarations replaces its file.** -/
theorem replaces_finishDeclarations (hinterface : isIdentifier o.interfaceName = true) {path : Path}
    (hoptions : e₂.options = o)
    (hreports : e₂.declarations.reports = some reports)
    (hsources : e₂.declarations.sources = cs.map Prod.snd)
    (hfinish : Gives (finishDeclarations ⟨path, .declarations⟩) e₂ more e₃) :
    path.Nameable ∧ ∃ place, OutputDirectory.At ⟨path, .declarations⟩ e₃.disk place ∧
      Replaces ⟨path, .declarations⟩ place (runFiles o reports supply cs .declarations) e₂.disk
        e₃.disk ∧
      more.map (fun f => (f.kind, f.name)) =
        ((runFiles o reports supply cs .declarations).map Prod.fst).map (Prod.mk .declarations) := by
  obtain ⟨reports', d₂, removed, d₃, hreports', hwrite, hclean, rfl, rfl⟩ :=
    gives_finishDeclarations_iff.1 hfinish
  cases hreports.symm.trans hreports'
  rw [hoptions] at hwrite hclean
  obtain ⟨place, q, hat, hq, hputs⟩ :=
    puts_of_write (TargetOptions.isSegment_declarationName hinterface) hwrite
  rw [hsources] at hputs
  have hwrote : Wrote place (runFiles o reports supply cs .declarations) e₂.disk d₂ :=
    wrote_of_puts hq hputs
  have hreplaces := hwrote.replaces hat (fun _ => owns_runFiles)
    (fun _ => replacement_not_mem_runFiles hinterface) (List.nodup_singleton _)
    (fun _ => Iff.rfl) hclean
  refine ⟨nameable_of_cleanUp hclean, place,
    (At.congr hreplaces.current hreplaces.directory_iff).1 hat, hreplaces, ?_⟩
  rw [hoptions]
  rfl

end Finish

/-- The target of a kind, if it is wanted, has replaced the files that belong to it. Nothing else has
changed. -/
structure Served (dir : Option Path) (kind : OutputKind) (files : List (String × String))
    (d d' : Disk) : Prop where
  current : d'.current = d.current
  directory_iff : ∀ q, d.standing q = .directory ↔ d'.standing q = .directory
  own : ∀ path, dir = some path → path.Nameable ∧
    ∃ place, OutputDirectory.At ⟨path, kind⟩ d' place ∧ OwnsExactly kind d' place files
  other : ∀ q, (∀ path, dir = some path → ¬ OutputDirectory.Covers ⟨path, kind⟩ d' q) →
    d'.standing q = d.standing q

lemma served_none (kind : OutputKind) (files : List (String × String)) (d : Disk) :
    Served none kind files d d where
  current := rfl
  directory_iff _ := Iff.rfl
  own := by simp
  other _ _ := rfl

lemma served_of_replaces {path : Path} {kind : OutputKind} {files : List (String × String)}
    {d d' : Disk} {place : Trail} (hpath : path.Nameable)
    (hat : OutputDirectory.At ⟨path, kind⟩ d' place) (h : Replaces ⟨path, kind⟩ place files d d') :
    Served (some path) kind files d d' where
  current := h.current
  directory_iff := h.directory_iff
  own := by
    rintro _ ⟨⟩
    exact ⟨hpath, place, hat, h.own⟩
  other := by
    intro q hq
    refine h.other q fun name howns heq => ?_
    exact hq path rfl ⟨place, name, hat.resolve hpath, howns, heq⟩

/-- What a target leaves stays when a target of another kind has its turn. -/
lemma Served.holdsExactly {dir dir' : Option Path} {kind kind' : OutputKind}
    {files files' : List (String × String)} {d d' d'' : Disk} (h : Served dir kind files d d')
    (h' : Served dir' kind' files' d' d'') (hkind : kind ≠ kind') {path : Path}
    (hdir : dir = some path) : OutputDirectory.HoldsExactly ⟨path, kind⟩ d'' files := by
  obtain ⟨hpath, place, hat, hown⟩ := h.own path hdir
  have hat' := (At.congr h'.current h'.directory_iff).1 hat
  refine ⟨place, hat'.resolve hpath, hat'.2, fun name contents => ?_⟩
  rw [← hown name contents]
  refine and_congr_right fun hname => ?_
  have hsame : d''.standing (place ++ [name]) = d'.standing (place ++ [name]) := by
    refine h'.other _ ?_
    rintro path' - ⟨place', name', -, hname', heq⟩
    have hlast : name = name' := List.singleton_inj.1 (List.append_inj_right' heq rfl)
    exact hkind (OutputKind.not_owns_both hname (hlast ▸ hname'))
  rw [hsame]

/-- The turn of the target for modules at the end of a run. -/
lemma served_finishModules {o : TargetOptions} {reports : Reports} {d : Disk} {supply : Supply}
    {cs : List (Catalog × String)} {e₁ e₂ e₃ : Emission} {files more : List EmittedFile}
    (hids : ∀ c ∈ cs, c.1.id ≠ "") (hnodup : (cs.map fun c => toIdentifier c.1.id).Nodup)
    (hinterface : isIdentifier o.interfaceName = true)
    (hbegun : Begun reports { options := o, disk := d, supply } e₁)
    (hcompile : Gives (compileAll cs) e₁ files e₂)
    (hturn : ∀ path, o.modulesDir = some path → Gives (finishModules ⟨path, .modules⟩) e₂ more e₃)
    (hno : o.modulesDir = none → more = [] ∧ e₃ = e₂) :
    Served o.modulesDir .modules (runFiles o reports supply cs .modules) e₁.disk e₃.disk ∧
      e₃.options = o ∧ e₃.declarations = e₂.declarations ∧
      (files ++ more).map (fun f => (f.kind, f.name)) =
        (o.modulesDir.map (⟨·, .modules⟩)).toList.flatMap fun dir : OutputDirectory =>
          ((runFiles o reports supply cs dir.kind).map Prod.fst).map (Prod.mk dir.kind) := by
  have hoptions : e₂.options = o := (compiled_compileAll hcompile).options.trans hbegun.options
  cases hdir : o.modulesDir with
  | none =>
    obtain ⟨rfl, rfl⟩ := hno hdir
    obtain ⟨rfl, hdisk⟩ := disk_compileAll (by rw [hbegun.options]; exact hdir) hcompile
    rw [hdisk]
    exact ⟨served_none .., hoptions, rfl, rfl⟩
  | some path =>
    obtain ⟨hpath, place, hat, hreplaces, hwritten⟩ :=
      replaces_finishModules hids hnodup hinterface hdir hbegun hcompile (hturn path hdir)
    obtain ⟨_, _, _, _, -, -, -, -, rfl⟩ := gives_finishModules_iff.1 (hturn path hdir)
    refine ⟨served_of_replaces hpath hat hreplaces, hoptions, rfl, ?_⟩
    rw [hwritten]
    simp

/-- The turn of the target for declarations at the end of a run. -/
lemma served_finishDeclarations {o : TargetOptions} {reports : Reports} {d : Disk} {supply : Supply}
    {cs : List (Catalog × String)} {e₁ e₂ e₃ e₄ : Emission} {more : List EmittedFile}
    (hinterface : isIdentifier o.interfaceName = true)
    (hbegun : Begun reports { options := o, disk := d, supply } e₁) (hcompiled : Compiled cs e₁ e₂)
    (hoptions : e₃.options = o) (hsame : e₃.declarations = e₂.declarations)
    (hturn : ∀ path, o.declarationsDir = some path →
      Gives (finishDeclarations ⟨path, .declarations⟩) e₃ more e₄)
    (hno : o.declarationsDir = none → more = [] ∧ e₄ = e₃) :
    Served o.declarationsDir .declarations (runFiles o reports supply cs .declarations) e₃.disk
        e₄.disk ∧
      more.map (fun f => (f.kind, f.name)) =
        (o.declarationsDir.map (⟨·, .declarations⟩)).toList.flatMap fun dir : OutputDirectory =>
          ((runFiles o reports supply cs dir.kind).map Prod.fst).map (Prod.mk dir.kind) := by
  cases hdir : o.declarationsDir with
  | none =>
    obtain ⟨rfl, rfl⟩ := hno hdir
    exact ⟨served_none .., rfl⟩
  | some path =>
    have hwanted : o.declarationsDir ≠ none := by rw [hdir]; simp
    have hreports : e₃.declarations.reports = some reports := by
      rw [hsame, hcompiled.declarations]
      exact hbegun.declarations hwanted
    have hsources : e₃.declarations.sources = cs.map Prod.snd := by
      rw [hsame, hcompiled.declared (by rw [hbegun.options]; exact hwanted), hbegun.declared]
      rfl
    obtain ⟨hpath, place, hat, hreplaces, hwritten⟩ := replaces_finishDeclarations hinterface
      hoptions hreports hsources (hturn path hdir)
    refine ⟨served_of_replaces hpath hat hreplaces, ?_⟩
    rw [hwritten]
    simp

/-- **A run leaves exactly its own files.** Each wanted target has its directory, in which those files
that belong to it are the ones it has just written, with the text of this run. All other files are what
they were. -/
theorem run_leaves_own_files {o : TargetOptions} {reports : Reports} {d : Disk} {supply : Supply}
    {cs : List (Catalog × String)} {e₁ e₂ e₃ : Emission} {files more : List EmittedFile}
    (hids : ∀ c ∈ cs, c.1.id ≠ "") (hnodup : (cs.map fun c => toIdentifier c.1.id).Nodup)
    (hinterface : isIdentifier o.interfaceName = true)
    (hstart : Gives (start reports) { options := o, disk := d, supply } () e₁)
    (hcompile : Gives (compileAll cs) e₁ files e₂) (hfinish : Gives finish e₂ more e₃) :
    (files ++ more).map (fun f => (f.kind, f.name)) = (directories o).flatMap (fun dir =>
        ((runFiles o reports supply cs dir.kind).map Prod.fst).map (Prod.mk dir.kind)) ∧
      (∀ dir ∈ directories o, dir.HoldsExactly e₃.disk (runFiles o reports supply cs dir.kind)) ∧
      ∀ q, (∀ dir ∈ directories o, ¬ dir.Covers e₃.disk q) → ∀ contents,
        (e₃.disk.standing q = .file contents ↔ d.standing q = .file contents) := by
  have hbegun := begun_start hstart
  have hcompiled := compiled_compileAll hcompile
  have hoptions : e₂.options = o := hcompiled.options.trans hbegun.options
  obtain ⟨_, _, hget, hfinish⟩ := gives_bind_iff.1 hfinish
  obtain ⟨rfl, rfl⟩ := gives_get_iff.1 hget
  rw [hoptions] at hfinish
  obtain ⟨first, between, second, rfl, hmodules, hno, hdeclarations, hno'⟩ :=
    gives_directories hfinish
  obtain ⟨hserved, hoptions', hsame, hwritten⟩ :=
    served_finishModules hids hnodup hinterface hbegun hcompile hmodules hno
  obtain ⟨hserved', hwritten'⟩ := served_finishDeclarations hinterface hbegun hcompiled
    hoptions' hsame hdeclarations hno'
  refine ⟨?_, ?_, ?_⟩
  · rw [← List.append_assoc, List.map_append, hwritten, hwritten', directories, List.flatMap_append]
  · intro dir hdir
    rcases mem_directories_iff.1 hdir with ⟨path, hpath, rfl⟩ | ⟨path, hpath, rfl⟩
    · exact hserved.holdsExactly hserved' (by simp) hpath
    · exact hserved'.holdsExactly (served_none .modules [] _) (by simp) hpath
  · intro q hq contents
    have hafter : e₃.disk.standing q = between.disk.standing q := by
      refine hserved'.other q fun path hpath => ?_
      exact hq _ (mem_directories_iff.2 (Or.inr ⟨path, hpath, rfl⟩))
    have hbefore : between.disk.standing q = e₁.disk.standing q := by
      refine hserved.other q fun path hpath hcovers => ?_
      refine hq _ (mem_directories_iff.2 (Or.inl ⟨path, hpath, rfl⟩)) ?_
      obtain ⟨place, name, hresolve, howns, heq⟩ := hcovers
      obtain ⟨hnameable, hleads⟩ := resolve_eq_ok_iff.1 hresolve
      exact ⟨place, name, resolve_eq_ok_iff.2 ⟨hnameable,
        (leads_congr hserved'.current.symm hserved'.directory_iff).1 hleads⟩, howns, heq⟩
    rw [hafter, hbefore]
    exact hbegun.grows.file_iff q contents

/-- Options that ask for both targets in the root directory. -/
def sharedOptions : TargetOptions :=
  { rootOptions with declarationsDir := some (.ofText "/") }

/-- The root directory after an earlier run, with a file that is not generated. -/
def usedDisk : Disk :=
  .ofList [(.ofText "de_Locale.ts", .file (.text "")), (.ofText "Words.d.ts", .file (.text "")),
    (.ofText "notes.txt", .file (.text "keep"))]

lemma resolve_root (d : Disk) : d.resolve (.ofText "/") = .ok [] := by
  rfl

lemma at_root (d : Disk) (kind : OutputKind) : OutputDirectory.At ⟨.ofText "/", kind⟩ d [] :=
  ⟨(resolve_eq_ok_iff.1 (resolve_root d)).2, standing_root d⟩

lemma nameable_root : (Path.ofText "/").Nameable :=
  (resolve_eq_ok_iff.1 (resolve_root ∅)).1

lemma nameable_join_root (name : FileName) : ((Path.ofText "/").join name.toPath).Nameable := by
  have hbytes : ((Path.ofText "/").join name.toPath).bytes = slash :: name.bytes := by
    unfold Path.join
    rw [FileName.toPath, Path.isAbsolute_eq_false name.slash_not_mem, if_neg (by decide),
      if_pos (by decide)]
    rfl
  unfold Path.Nameable
  rw [hbytes]
  have hlength := name.length_le
  refine ⟨?_, by simp, ?_⟩
  · rw [List.mem_cons, not_or]
    exact ⟨by decide, name.zero_not_mem⟩
  · rw [List.length_cons]
    exact Nat.le_trans (Nat.add_le_add_right hlength 1) (by decide)

lemma standing_ne_directory {d : Disk} (h : (d.entries.all fun e => e.2 != .directory) = true)
    (name : FileName) : d.standing [name] ≠ .directory := by
  intro hname
  have hmem := mem_entries_iff.2 ⟨List.cons_ne_nil name [], by simp, hname⟩
  simpa using List.all_eq_true.1 h _ hmem

lemma exists_fileName (name : String) (h : isFileName (.ofText name) = true) :
    ∃ n : FileName, n.bytes = .ofText name :=
  ⟨⟨_, h⟩, rfl⟩

/-- With both targets in the root, the end of a run succeeds. -/
lemma exists_finish_shared {e : Emission} {reports : Reports} (hoptions : e.options = sharedOptions)
    (hmodules : e.modules.reports = some reports)
    (hdeclarations : e.declarations.reports = some reports)
    (hfree : ∀ name : FileName, e.disk.standing [name] ≠ .directory) :
    ∃ files e', Gives finish e files e' := by
  obtain ⟨index, hindex⟩ := exists_fileName indexName (by decide)
  obtain ⟨declaration, hdeclaration⟩ := exists_fileName "Locale.d.ts" (by decide)
  obtain ⟨d₁, removed, d₂, hwrite, hclean, hdirectory⟩ :=
    exists_write_cleanUp (at_root e.disk .modules) nameable_root nameable_join_root hindex
      (hfree index) (indexOf e reports).text
      (indexName :: (e.modules.locales.mergeSort (fun a b => a.id ≤ b.id)).map (·.fileName))
  obtain ⟨d₃, removed', d₄, hwrite', hclean', -⟩ :=
    exists_write_cleanUp (at_root d₂ .declarations) nameable_root nameable_join_root hdeclaration
      (by rw [Ne, hdirectory]; exact hfree declaration)
      (declarationProgram e.options reports
        (e.declarations.sources.mergeSort (fun a b => a ≤ b))).text ["Locale.d.ts"]
  have hname : e.options.declarationName = "Locale.d.ts" := by
    rw [hoptions]
    decide
  rw [← hname] at hwrite' hclean'
  obtain ⟨e₁, he₁, hfirst⟩ : ∃ e₁, e₁ = { e with
      disk := d₂, modules := { e.modules with sources := [], locales := [] } } ∧
      Gives (finishModules ⟨.ofText "/", .modules⟩) e [⟨.modules, indexName, 0, 0⟩] e₁ :=
    ⟨_, rfl, gives_finishModules_iff.2
      ⟨reports, d₁, removed, d₂, hmodules, hwrite, hclean, rfl, rfl⟩⟩
  obtain ⟨more, e₂, hsecond⟩ : ∃ more e₂,
      Gives (finishDeclarations ⟨.ofText "/", .declarations⟩) e₁ more e₂ := by
    rw [he₁]
    exact ⟨_, _, gives_finishDeclarations_iff.2
      ⟨reports, d₃, removed', d₄, hdeclarations, hwrite', hclean', rfl, rfl⟩⟩
  refine ⟨[⟨.modules, indexName, 0, 0⟩] ++ more, e₂,
    gives_bind_iff.2 ⟨e, e, gives_get_iff.2 ⟨rfl, rfl⟩, ?_⟩⟩
  rw [hoptions]
  exact gives_gather_append.2
    ⟨_, e₁, more, gives_gather_one.2 hfirst, gives_gather_one.2 hsecond, rfl⟩

lemma exists_run_shared : ∃ reports e₁ e₂ e₃ files more,
    (checkCatalogs [englishLocale, frenchLocale]).reports = some reports ∧
      Gives (start reports) { options := sharedOptions, disk := usedDisk } () e₁ ∧
      Gives (compileAll [(englishLocale, "en.tm"), (frenchLocale, "fr.tm")]) e₁ files e₂ ∧
      Gives finish e₂ more e₃ := by
  have hrun : (checkCatalogs [englishLocale, frenchLocale]).reports.map (fun reports =>
      let run := (do
        start reports
        compileAll [(englishLocale, "en.tm"), (frenchLocale, "fr.tm")] : Emitting _).run.run
          { options := sharedOptions, disk := usedDisk }
      (run.1.isOk, run.2.disk.entries.all fun e => e.2 != .directory)) = some (true, true) := by
    decide +kernel
  obtain ⟨reports, hreports, hend⟩ := Option.map_eq_some_iff.1 hrun
  obtain ⟨hok, hfiles⟩ := Prod.mk.inj hend
  obtain ⟨files, e₂, h⟩ := exists_gives hok
  have hdone := h
  unfold Gives at hdone
  rw [hdone] at hfiles
  obtain ⟨_, e₁, hstart, hcompile⟩ := gives_bind_iff.1 h
  have hbegun := begun_start hstart
  have hcompiled := compiled_compileAll hcompile
  obtain ⟨more, e₃, hfinish⟩ := exists_finish_shared (hcompiled.options.trans hbegun.options)
    (hcompiled.modules.trans (hbegun.modules (by simp [sharedOptions, rootOptions])))
    (hcompiled.declarations.trans (hbegun.declarations (by simp [sharedOptions])))
    (standing_ne_directory hfiles)
  exact ⟨reports, e₁, e₂, e₃, files, more, hreports, hstart, hcompile, hfinish⟩

/-- Both targets in one directory, with files of an earlier run and one that is not generated. -/
theorem run_leaves_own_files_shared : ∃ reports e₁ e₂ e₃ files more,
    (checkCatalogs [englishLocale, frenchLocale]).reports = some reports ∧
      Gives (start reports) { options := sharedOptions, disk := usedDisk } () e₁ ∧
      Gives (compileAll [(englishLocale, "en.tm"), (frenchLocale, "fr.tm")]) e₁ files e₂ ∧
      Gives finish e₂ more e₃ ∧
      (files ++ more).map (fun f => (f.kind, f.name)) = [(.modules, "en_Locale.ts"),
        (.modules, "fr_Locale.ts"), (.modules, "index.ts"), (.declarations, "Locale.d.ts")] ∧
      (∀ contents, e₃.disk.standing (.ofText "de_Locale.ts") ≠ .file contents) ∧
      e₃.disk.standing (.ofText "notes.txt") = .file (.text "keep") := by
  obtain ⟨reports, e₁, e₂, e₃, files, more, hreports, hstart, hcompile, hfinish⟩ := exists_run_shared
  refine ⟨reports, e₁, e₂, e₃, files, more, hreports, hstart, hcompile, hfinish, ?_⟩
  obtain ⟨hwritten, hholds, hother⟩ := run_leaves_own_files
    (by decide) (by decide +kernel) (by decide) hstart hcompile hfinish
  refine ⟨?_, fun contents hfile => ?_, (hother _ ?_ _).2 (by decide +kernel)⟩
  · rw [show directories sharedOptions =
      [⟨.ofText "/", .modules⟩, ⟨.ofText "/", .declarations⟩] from rfl] at hwritten
    simp only [List.flatMap_cons, List.flatMap_nil, map_fst_runFiles_modules,
      map_fst_runFiles_declarations] at hwritten
    exact hwritten.trans (by decide +kernel)
  · obtain ⟨name, hname⟩ := exists_fileName "de_Locale.ts" (by decide)
    obtain ⟨place, hresolve, -, hown⟩ := hholds ⟨.ofText "/", .modules⟩ (by decide)
    cases (resolve_root e₃.disk).symm.trans hresolve
    rw [Trail.ofText_eq_singleton hname] at hfile
    obtain ⟨file, text, hmem, hbytes, -⟩ := (hown name contents).1
      ⟨by rw [FileName.shown_of_bytes hname]; decide, hfile⟩
    cases RawText.ofText_injective (hname.symm.trans hbytes)
    have hlisted : "de_Locale.ts" ∈ List.map Prod.fst _ := List.mem_map.2 ⟨_, hmem, rfl⟩
    rw [map_fst_runFiles_modules] at hlisted
    exact absurd hlisted (by decide +kernel)
  · obtain ⟨notes, hnotes⟩ := exists_fileName "notes.txt" (by decide)
    rintro dir - ⟨place, name, -, howns, heq⟩
    rw [Trail.ofText_eq_singleton hnotes] at heq
    have hname : notes = name := by simpa using congrArg List.getLast? heq
    have hnone : ∀ kind : OutputKind, kind.owns "notes.txt" = false := by
      rintro (_ | _) <;> decide
    rw [← hname, FileName.shown_of_bytes hnotes, hnone] at howns
    cases howns

end Emitting

end Generate

end Polyglot
