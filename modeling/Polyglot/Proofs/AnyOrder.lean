import Polyglot.Proofs.NeverStuck

/-!
# The order of the calls does not matter

Catalogs are compiled side by side, and what is noted on the way is put in order at the end. So a run
leaves the same files whatever the order in which calls take their steps, and only modules may hold
something else: their cache keys are chosen anew, and catalogs that share a module write over each
other.

* `Output`, `SameButModules`: what a run leaves, and what two runs have in common;
* `alike_of_interleaves`, `Interleaves.output`: before and after the end of the run;
* `any_order_same_output`: the main statement;
* `shared_module_depends_on_order`: where the order does show.
-/

namespace Polyglot.Generate

open Disk OutputDirectory
open Emitting (Gives directories start finish)

/-! ### The output -/

/-- The place of the module of a catalog. -/
def TargetOptions.ModulePlace (o : TargetOptions) (d : Disk) (c : Catalog × String)
    (q : Trail) : Prop :=
  ∃ path place, o.modulesDir = some path ∧ d.resolve path = .ok place ∧
    Holds place (.ofText (o.moduleName c.1.id)) q

/-- What a run leaves: the index module and the declaration file for all catalogs, and for each
catalog a module under its name. Where catalogs share a name, it is the module of one of them. A
declaration file whose name leads to another directory may not be there. -/
structure Output (o : TargetOptions) (reports : Reports) (cs : List (Catalog × String)) (d : Disk) :
    Prop where
  index : ∀ path, o.modulesDir = some path →
    OutputDirectory.HasFile ⟨path, .modules⟩ d indexName (indexText o reports cs)
  declarations : ∀ path, o.declarationsDir = some path → '/' ∉ o.interfaceName.toList →
    OutputDirectory.HasFile ⟨path, .declarations⟩ d o.declarationName (declarationText o reports cs)
  modules : ∀ path, o.modulesDir = some path → ∀ c ∈ cs, ∃ c' ∈ cs,
    o.moduleName c'.1.id = o.moduleName c.1.id ∧ ∃ text, IsModule o reports c' text ∧
      OutputDirectory.HasFile ⟨path, .modules⟩ d (o.moduleName c.1.id) text

/-- The same files are there, and only modules of catalogs may differ in what they hold. -/
structure SameButModules (o : TargetOptions) (cs : List (Catalog × String)) (d d' : Disk) : Prop where
  file_iff : ∀ q, (∃ x, d.standing q = .file x) ↔ ∃ x, d'.standing q = .file x
  other : ∀ q, (∀ c ∈ cs, ¬ o.ModulePlace d c q) → d'.standing q = d.standing q

section Output

variable {o : TargetOptions} {reports : Reports} {cs : List (Catalog × String)} {e e₁ e₂ : Emission}
  {done done₁ done₂ : List Call} {d d' : Disk} {place : Trail}

/-- The module of one of the catalogs that have theirs at a place. -/
def ModuleAt (o : TargetOptions) (reports : Reports) (cs : List (Catalog × String)) (d : Disk)
    (q : Trail) (x : Contents) : Prop :=
  ∃ c ∈ cs, o.ModulePlace d c q ∧ ∃ text, x = .text text ∧ IsModule o reports c text

/-- **Two runs write the same files**, and the same into each but the modules. -/
theorem alike_of_interleaves (h₁ : Interleaves reports cs e e₁ done₁)
    (h₂ : Interleaves reports cs e e₂ done₂) (hkeys : e.modules.cacheKeys = [])
    (hplace : ∀ path, e.options.modulesDir = some path →
      e.disk.resolve path = .ok place ∧ e.disk.standing place = .directory) :
    Alike (fun q x y => x = y ∨
        ModuleAt e.options reports cs e.disk q x ∧ ModuleAt e.options reports cs e.disk q y)
      e₁.disk e₂.disk := by
  have hat : ∀ path, e.options.modulesDir = some path →
      OutputDirectory.At ⟨path, .modules⟩ e.disk place := fun path hpath =>
    ⟨(resolve_eq_ok_iff.1 (hplace path hpath).1).2, (hplace path hpath).2⟩
  obtain ⟨files₁, hwrote₁, hmodules₁, hall₁⟩ := h₁.wrote hkeys hat
  obtain ⟨files₂, hwrote₂, hmodules₂, hall₂⟩ := h₂.wrote hkeys hat
  have hnames : ∀ name, name ∈ files₁.map Prod.fst ↔ name ∈ files₂.map Prod.fst := by
    intro name
    constructor
    · intro hname
      obtain ⟨f, hf, rfl⟩ := List.mem_map.1 hname
      obtain ⟨hwanted, c, hc, heq, -⟩ := hmodules₁ f hf
      rw [heq]
      exact hall₂ hwanted c hc
    · intro hname
      obtain ⟨f, hf, rfl⟩ := List.mem_map.1 hname
      obtain ⟨hwanted, c, hc, heq, -⟩ := hmodules₂ f hf
      rw [heq]
      exact hall₁ hwanted c hc
  have hmoduleAt : ∀ f : String × String, (e.options.modulesDir ≠ none ∧ ∃ c ∈ cs,
      f.1 = e.options.moduleName c.1.id ∧ IsModule e.options reports c f.2) →
      ∀ q, Holds place (.ofText f.1) q → ModuleAt e.options reports cs e.disk q (.text f.2) := by
    rintro f ⟨hwanted, c, hc, heq, hmodule⟩ q hq
    obtain ⟨path, hpath⟩ := Option.ne_none_iff_exists'.1 hwanted
    exact ⟨c, hc, ⟨path, place, hpath, (hplace path hpath).1, heq ▸ hq⟩, f.2, rfl, hmodule⟩
  refine ⟨hwrote₂.current.trans hwrote₁.current.symm, fun q => ?_⟩
  by_cases hq : ∃ name ∈ files₁.map Prod.fst, Holds place (.ofText name) q
  · obtain ⟨name, hname, hq⟩ := hq
    obtain ⟨text₁, q₁, hmem₁, hq₁, hstanding₁⟩ := hwrote₁.written name hname
    obtain ⟨text₂, q₂, hmem₂, hq₂, hstanding₂⟩ := hwrote₂.written name ((hnames name).1 hname)
    obtain rfl := hq.unique hq₁
    obtain rfl := hq.unique hq₂
    rw [hstanding₁, hstanding₂]
    exact Or.inr ⟨hmoduleAt _ (hmodules₁ _ hmem₁) _ hq₁, hmoduleAt _ (hmodules₂ _ hmem₂) _ hq₁⟩
  · have hne : ∀ name ∈ files₁.map Prod.fst, ¬ Holds place (.ofText name) q := by
      intro name hname hholds
      exact hq ⟨name, hname, hholds⟩
    rw [hwrote₁.other q hne, hwrote₂.other q fun name hname => hne name ((hnames name).2 hname)]
    exact Standing.alike_refl (fun _ => Or.inl rfl) _

/-- **What is there after the turns at the end.** -/
theorem Interleaves.output (h : Interleaves reports cs e e₁ done) (hkeys : e.modules.cacheKeys = [])
    (hturn : Turn indexName (indexText e.options reports cs) (keptModules e.options cs)
      (e.options.modulesDir.map (⟨·, .modules⟩)) e₁.disk d)
    (hturn' : Turn e.options.declarationName (declarationText e.options reports cs)
      [e.options.declarationName] (e.options.declarationsDir.map (⟨·, .declarations⟩)) d d') :
    Output e.options reports cs d' := by
  obtain ⟨hcurrent, hdirectory⟩ := hturn.directory_iff
  obtain ⟨hcurrent', hdirectory'⟩ := hturn'.directory_iff
  have hresolve : ∀ {path place}, e₁.disk.resolve path = .ok place → d'.resolve path = .ok place :=
    fun h => (resolve_congr hcurrent' hdirectory').1 ((resolve_congr hcurrent hdirectory).1 h)
  refine ⟨fun path hpath => ?_, fun path hpath hslash => ?_, fun path hpath c hc => ?_⟩
  · rw [hpath] at hturn
    obtain ⟨place, q, hplace, -, hq, hfile⟩ :=
      hturn.standing_written isSegment_indexName (List.mem_cons_self ..)
    refine ⟨place, q, hresolve hplace, hq, ?_⟩
    obtain ⟨index, hindex, rfl⟩ := hq
    rw [hturn'.standing_of_module place (by rw [FileName.shown_of_bytes hindex]; exact owns_indexName),
      hfile]
  · rw [hpath] at hturn'
    have hname : '/' ∉ e.options.declarationName.toList := by
      rw [TargetOptions.declarationName, String.toList_append, List.mem_append, not_or]
      exact ⟨hslash, by decide⟩
    obtain ⟨place, q, hplace, -, hq, hfile⟩ := hturn'.standing_written
      (OutputKind.isSegment_of_hasEnding (OutputKind.hasEnding_of_owns e.options.owns_declarationName)
        hname)
      (List.mem_singleton_self _)
    exact ⟨place, q, (resolve_congr hcurrent' hdirectory').1 hplace, hq, hfile⟩
  · have hturn₁ := hturn
    rw [hpath] at hturn₁
    obtain ⟨place, -, hplace, hdir, -⟩ :=
      hturn₁.standing_written isSegment_indexName (List.mem_cons_self ..)
    have hat : ∀ path, e.options.modulesDir = some path →
        OutputDirectory.At ⟨path, .modules⟩ e.disk place := by
      intro path' hpath'
      cases hpath.symm.trans hpath'
      exact (At.congr h.progress.current h.progress.directory_iff).2
        ⟨(resolve_eq_ok_iff.1 hplace).2, hdir⟩
    obtain ⟨files, hwrote, hmodules, hall⟩ := h.wrote hkeys hat
    obtain ⟨text, q, hmem, hq, hfile⟩ := hwrote.written _ (hall (by rw [hpath]; simp) c hc)
    obtain ⟨-, c', hc', heq, hmodule⟩ := hmodules _ hmem
    refine ⟨c', hc', heq.symm, text, hmodule, place, q, hresolve hplace, hq, ?_⟩
    rw [standing_of_turns hturn hturn' hc hq, hfile]

/-- At the end the disks of two runs have the same files, with the same in each but the modules. -/
lemma sameButModules_of_alike {d₀ : Disk} (hcurrent : d.current = d₀.current)
    (hdirectory : ∀ q, d₀.standing q = .directory ↔ d.standing q = .directory)
    (h : Alike (fun q x y => x = y ∨ ModuleAt o reports cs d₀ q x ∧ ModuleAt o reports cs d₀ q y) d d') :
    SameButModules o cs d d' where
  file_iff := by
    intro q
    constructor
    · rintro ⟨x, hx⟩
      obtain ⟨y, hy, -⟩ := h.file_left hx
      exact ⟨y, hy⟩
    · rintro ⟨y, hy⟩
      obtain ⟨x, hx, -⟩ := h.file_right hy
      exact ⟨x, hx⟩
  other := by
    intro q hq
    refine h.standing_eq ?_
    rintro x y (rfl | ⟨⟨c, hc, ⟨path, place, hpath, hresolve, heq⟩, -⟩, -⟩)
    · rfl
    · exact (hq c hc ⟨path, place, hpath, (resolve_congr hcurrent hdirectory).1 hresolve, heq⟩).elim

end Output

/-- **The order of the calls does not show in the output.** Let the calls come to an end in some order of
their steps, so that the run can be finished. Then they come to an end in every order, as long as there
are words to choose from, and after each of them the run can be finished too. The calls give the same
files back. The disks have the same files, with the same index module, the same declaration file, and
the same in all files but the modules of catalogs. A module whose name belongs to one catalog is that of
the catalog in both, up to the choice of cache keys. -/
theorem any_order_same_output {o : TargetOptions} {reports : Reports} {d : Disk} {supply : Supply}
    {cs : List (Catalog × String)} {e e₁ e₁' : Emission} {done₁ : List Call} {more : List EmittedFile}
    (hids : (cs.map fun c => c.1.id).Nodup)
    (hstart : Gives (start reports) { options := o, disk := d, supply } () e)
    (h₁ : Interleaves reports cs e e₁ done₁) (hfinish : Gives finish e₁ more e₁') :
    (((calls o reports cs).map Call.size).sum ≤ wordCount → Ends reports (e, calls o reports cs)) ∧
    ∀ e₂ done₂, Interleaves reports cs e e₂ done₂ →
      (done₂.flatMap fun c => c.stage.files) = (done₁.flatMap fun c => c.stage.files) ∧
      ∃ e₂', Gives finish e₂ more e₂' ∧
        Output o reports cs e₁'.disk ∧ Output o reports cs e₂'.disk ∧
        SameButModules o cs e₁'.disk e₂'.disk ∧
        ∀ path, o.modulesDir = some path → ∀ c ∈ cs,
          (∀ c' ∈ cs, o.moduleName c'.1.id = o.moduleName c.1.id → c' = c) →
          ∃ text₁ text₂, IsModule o reports c text₁ ∧ IsModule o reports c text₂ ∧
            OutputDirectory.HasFile ⟨path, .modules⟩ e₁'.disk (o.moduleName c.1.id) text₁ ∧
            OutputDirectory.HasFile ⟨path, .modules⟩ e₂'.disk (o.moduleName c.1.id) text₂ := by
  have hbegun := Emitting.begun_start hstart
  have hoptions : e.options = o := hbegun.options
  have hkeys : e.modules.cacheKeys = [] := hbegun.cacheKeys
  subst hoptions
  refine ⟨fun hroom => h₁.ends (by simpa [hkeys] using hroom) .refl, fun e₂ done₂ h₂ => ?_⟩
  obtain ⟨d₁, d₁', hturn₁, hturn₁', rfl, rfl⟩ :=
    (Emitting.gives_finish_iff (h₁.complete hbegun) hids).1 hfinish
  -- The directory of the modules is where the index module was written.
  obtain ⟨place, hplace⟩ : ∃ place, ∀ path, e.options.modulesDir = some path →
      e.disk.resolve path = .ok place ∧ e.disk.standing place = .directory := by
    cases hdir : e.options.modulesDir with
    | none => exact ⟨[], by simp⟩
    | some path =>
      rw [hdir] at hturn₁
      obtain ⟨place, -, hresolve, hstanding, -⟩ :=
        hturn₁.standing_written isSegment_indexName (List.mem_cons_self ..)
      refine ⟨place, ?_⟩
      rintro _ ⟨⟩
      exact ⟨(resolve_congr h₁.progress.current h₁.progress.directory_iff).2 hresolve,
        (h₁.progress.directory_iff place).2 hstanding⟩
  -- What the end of the first run does to its disk can be done to the other, which is alike.
  have halike := alike_of_interleaves h₁ h₂ hkeys hplace
  obtain ⟨d₂, hturn₂, halike'⟩ := hturn₁.exists_alike (fun _ _ => Or.inl rfl) halike
  obtain ⟨d₂', hturn₂', halike''⟩ := hturn₁'.exists_alike (fun _ _ => Or.inl rfl) halike'
  have hout₁ := h₁.output hkeys hturn₁ hturn₁'
  have hout₂ := h₂.output hkeys hturn₂ hturn₂'
  obtain ⟨hcurrent, hdirectory⟩ := hturn₁.directory_iff
  obtain ⟨hcurrent', hdirectory'⟩ := hturn₁'.directory_iff
  refine ⟨h₂.files.trans h₁.files.symm, Emitting.afterModules e₂ d₂',
    (Emitting.gives_finish_iff (h₂.complete hbegun) hids).2 ⟨d₂, d₂', hturn₂, hturn₂', rfl, rfl⟩,
    hout₁, hout₂, ?_, ?_⟩
  · refine sameButModules_of_alike (hcurrent'.trans (hcurrent.trans h₁.progress.current)) ?_ halike''
    intro q
    rw [h₁.progress.directory_iff, hdirectory, hdirectory']
    rfl
  · intro path hpath c hc halone
    obtain ⟨c₁, hc₁, heq₁, text₁, hmodule₁, hfile₁⟩ := hout₁.modules path hpath c hc
    obtain ⟨c₂, hc₂, heq₂, text₂, hmodule₂, hfile₂⟩ := hout₂.modules path hpath c hc
    rw [halone c₁ hc₁ heq₁] at hmodule₁
    rw [halone c₂ hc₂ heq₂] at hmodule₂
    exact ⟨text₁, text₂, hmodule₁, hmodule₂, hfile₁, hfile₂⟩

/-! ### Catalogs without code -/

/-- A piece for which nothing is chosen. -/
def Piece.isText {α : Type} : Piece α → Bool
  | .text _ => true
  | _ => false

section Plain

variable {o : TargetOptions} {reports : Reports}

lemma Piece.isText_blank (p : Piece Word) : p.blank.isText = p.isText := by
  cases p <;> rfl

lemma all_isText_of_blank {built : List (Piece Word)} {ps : List (Piece Unit)}
    (hblank : built.map Piece.blank = ps) (hplain : ∀ p ∈ ps, p.isText = true) :
    ∀ p ∈ built, p.isText = true := by
  intro p hp
  rw [← p.isText_blank]
  exact hplain _ (hblank ▸ List.mem_map_of_mem hp)

lemma insertionOf_of_isText {built : List (Piece Word)} (h : ∀ p ∈ built, p.isText = true) :
    insertionOf built = {} := by
  have hnone : ∀ p ∈ built, p.insertion? = none := by
    intro p hp
    have hp := h p hp
    cases p with
    | text => rfl
    | code | key => cases hp
  rw [insertionOf, List.filterMap_eq_nil_iff.2 hnone]

lemma textOf_finished_of_isText {built : List (Piece Word)} {ps : List (Piece Unit)}
    (hblank : built.map Piece.blank = ps) (hplain : ∀ p ∈ ps, p.isText = true) :
    textOf Piece.finished built = textOf Piece.fixed ps := by
  subst hblank
  induction built with
  | nil => rfl
  | cons p built ih =>
    rw [List.map_cons] at hplain
    obtain ⟨hp, hrest⟩ := List.forall_mem_cons.1 hplain
    rw [textOf_cons, List.map_cons, textOf_cons, ih hrest]
    cases p with
    | text s => rfl
    | code | key => cases hp

lemma fillAll_of_isText {ps : List (Piece Unit)} (hplain : ∀ p ∈ ps, p.isText = true)
    (m : Materials) :
    ∃ built, (fillAll ps).run m = (built, m) ∧ built.map Piece.blank = ps := by
  induction ps with
  | nil => exact ⟨[], rfl, rfl⟩
  | cons p ps ih =>
    obtain ⟨hp, hrest⟩ := List.forall_mem_cons.1 hplain
    obtain ⟨built, hfill, hblank⟩ := ih hrest
    cases p with
    | text s =>
      refine ⟨.text s :: built, ?_, ?_⟩
      · rw [fillAll_text_run, hfill]
      · rw [List.map_cons, hblank]
        rfl
    | code | key => cases hp

/-- A module without code is the same whatever words there are. -/
lemma localeModule_of_isText {c : Catalog × String}
    (hplain : ∀ p ∈ modulePieces o reports c.1 c.2, p.isText = true) (cacheKeys : CacheKeys)
    (supply : Supply) : (localeModule o reports c.1 c.2 cacheKeys supply).1 =
      textOf Piece.fixed (modulePieces o reports c.1 c.2) := by
  obtain ⟨built, hfill, hblank⟩ := fillAll_of_isText hplain { cacheKeys, supply }
  have hnone := insertionOf_of_isText (all_isText_of_blank hblank hplain)
  rw [localeModule_eq hfill hnone.symm, ← textOf_finished_of_isText hblank hplain]
  refine process_printed ?_ ?_ <;> simp [hnone, Insertion.used]

lemma isModule_iff_of_isText {c : Catalog × String}
    (hplain : ∀ p ∈ modulePieces o reports c.1 c.2, p.isText = true) {text : String} :
    IsModule o reports c text ↔ text = textOf Piece.fixed (modulePieces o reports c.1 c.2) := by
  constructor
  · rintro ⟨built, hblank, -, rfl⟩
    exact textOf_finished_of_isText hblank hplain
  · rintro rfl
    obtain ⟨built, -, hblank⟩ := fillAll_of_isText hplain {}
    have hkeys : ∀ p ∈ built, p.key? = none := by
      intro p hp
      have hp := all_isText_of_blank hblank hplain p hp
      cases p with
      | text => rfl
      | code | key => cases hp
    refine ⟨built, hblank, ?_, (textOf_finished_of_isText hblank hplain).symm⟩
    rw [List.filterMap_eq_nil_iff.2 hkeys]
    exact List.nodup_nil

end Plain

/-! ### Runs in two orders -/

open Emitting Coverage

/-- Catalogs without code can be compiled in this order and in the reverse one, for both targets in
the root directory. -/
def Compiles (reports : Reports) (cs : List (Catalog × String)) : Prop :=
  let begun := (start reports).run.run { options := sharedOptions, disk := usedDisk }
  begun.1.isOk = true ∧ ((compileAll cs).run.run begun.2).1.isOk = true ∧
    ((compileAll cs.reverse).run.run begun.2).1.isOk = true ∧
    (begun.2.disk.entries.all fun e => e.2 != .directory) = true ∧
    ((calls sharedOptions reports cs).map Call.size).sum ≤ wordCount ∧
    ∀ c ∈ cs, ∀ p ∈ modulePieces sharedOptions reports c.1 c.2, p.isText = true

instance (reports : Reports) (cs : List (Catalog × String)) : Decidable (Compiles reports cs) :=
  inferInstanceAs (Decidable (_ ∧ _))

section Runs

variable {reports : Reports} {cs cs' : List (Catalog × String)} {e e' : Emission} {done : List Call}
  {files : List EmittedFile}

/-- Without code there are no placeholders. -/
lemma apart_of_isText (h : Reaches reports (e, calls e.options reports cs) (e', done))
    (hover : ∀ c ∈ done, c.stage.isOver = true)
    (hplain : ∀ c ∈ cs, ∀ p ∈ modulePieces e.options reports c.1 c.2, p.isText = true) :
    ∀ c ∈ done, c.Apart := by
  intro c hc
  have hpieces := (h.progress.sound (sound_calls _ _ _) c hc).pieces
  rw [Stage.left_of_isOver (hover c hc), List.append_nil] at hpieces
  obtain ⟨hmem, -⟩ := h.progress.mem_about_iff.1 (List.mem_map_of_mem (f := Call.about) hc)
  have htext : ∀ p ∈ Call.pieces e.options reports (c.catalog, c.source) c.dir.kind,
      p.isText = true := by
    cases c.dir.kind with
    | modules => exact hplain _ hmem
    | declarations => exact List.forall_mem_nil _
  rw [Call.Apart, insertionOf_of_isText (all_isText_of_blank hpieces htext)]
  exact List.forall_mem_nil _

lemma interleaves_of_compileAll (hperm : cs'.Perm cs)
    (hbegun : Begun reports { options := sharedOptions, disk := usedDisk } e)
    (hroom : ((calls sharedOptions reports cs).map Call.size).sum ≤ wordCount)
    (hplain : ∀ c ∈ cs, ∀ p ∈ modulePieces sharedOptions reports c.1 c.2, p.isText = true)
    (h : Gives (compileAll cs') e files e') : ∃ done, Interleaves reports cs e e' done := by
  have hoptions : e.options = sharedOptions := hbegun.options
  have hkeys : e.modules.cacheKeys = [] := hbegun.cacheKeys
  rw [← hoptions] at hroom hplain
  obtain ⟨done, hreach, hover, -⟩ := reaches_compileAll hperm
    (fun _ => hbegun.modules (by simp [sharedOptions, rootOptions]))
    (roomy_calls (by rw [hkeys, List.length_nil, Nat.zero_add]; exact hroom)) h
  exact ⟨done, hreach, hover, apart_of_isText hreach hover hplain⟩

lemma exists_finish_of_interleaves
    (hbegun : Begun reports { options := sharedOptions, disk := usedDisk } e)
    (hfiles : (e.disk.entries.all fun e => e.2 != .directory) = true)
    (h : Interleaves reports cs e e' done) : ∃ more e'', Gives finish e' more e'' := by
  refine exists_finish_shared (h.progress.options.trans hbegun.options)
    (h.progress.modules.trans (hbegun.modules (by simp [sharedOptions, rootOptions])))
    (h.progress.declarations.trans (hbegun.declarations (by simp [sharedOptions]))) fun name => ?_
  rw [Ne, ← h.progress.directory_iff]
  exact standing_ne_directory hfiles name

/-- Both orders come to an end. -/
lemma exists_runs (h : Compiles reports cs) : ∃ e files₁ files₂ e₁ e₂ done₁ done₂ more₁ more₂ e₁' e₂',
    Gives (start reports) { options := sharedOptions, disk := usedDisk } () e ∧
      Gives (compileAll cs) e files₁ e₁ ∧ Gives (compileAll cs.reverse) e files₂ e₂ ∧
      Interleaves reports cs e e₁ done₁ ∧ Interleaves reports cs e e₂ done₂ ∧
      Gives finish e₁ more₁ e₁' ∧ Gives finish e₂ more₂ e₂' := by
  obtain ⟨hok, hcompiled₁, hcompiled₂, hfiles, hroom, hplain⟩ := h
  obtain ⟨_, e, hstart⟩ := exists_gives hok
  have hend : ((start reports).run.run { options := sharedOptions, disk := usedDisk }).2 = e := by
    rw [hstart]
  rw [hend] at hcompiled₁ hcompiled₂ hfiles
  obtain ⟨files₁, e₁, hrun₁⟩ := exists_gives hcompiled₁
  obtain ⟨files₂, e₂, hrun₂⟩ := exists_gives hcompiled₂
  have hbegun := begun_start hstart
  obtain ⟨done₁, h₁⟩ := interleaves_of_compileAll .rfl hbegun hroom hplain hrun₁
  obtain ⟨done₂, h₂⟩ := interleaves_of_compileAll (List.reverse_perm cs) hbegun hroom hplain hrun₂
  obtain ⟨more₁, e₁', hfinish₁⟩ := exists_finish_of_interleaves hbegun hfiles h₁
  obtain ⟨more₂, e₂', hfinish₂⟩ := exists_finish_of_interleaves hbegun hfiles h₂
  exact ⟨e, files₁, files₂, e₁, e₂, done₁, done₂, more₁, more₂, e₁', e₂', hstart, hrun₁, hrun₂, h₁, h₂,
    hfinish₁, hfinish₂⟩

end Runs

lemma hasFile_root_iff {kind : OutputKind} {d : Disk} {name text : String} :
    OutputDirectory.HasFile ⟨.ofText "/", kind⟩ d name text ↔
      ∃ q, Holds [] (.ofText name) q ∧ d.standing q = .file (.text text) := by
  unfold OutputDirectory.HasFile
  simp [resolve_root]

lemma standing_of_hasFile_root {kind : OutputKind} {d : Disk} {name text : String}
    (h : OutputDirectory.HasFile ⟨.ofText "/", kind⟩ d name text) :
    d.standing (.ofText name) = .file (.text text) := by
  obtain ⟨_, ⟨n, hn, rfl⟩, hfile⟩ := hasFile_root_iff.1 h
  rw [Trail.ofText_eq_singleton hn]
  exact hfile

/-- English before French and French before English, with files of an earlier run. -/
theorem any_order_same_output_shared : ∃ reports e e₁ e₂ done₁ done₂ more e₁' e₂' files₁ files₂,
    (checkCatalogs [englishLocale, frenchLocale]).reports = some reports ∧
      Gives (start reports) { options := sharedOptions, disk := usedDisk } () e ∧
      Gives (compileAll [(englishLocale, "en.tm"), (frenchLocale, "fr.tm")]) e files₁ e₁ ∧
      Gives (compileAll [(frenchLocale, "fr.tm"), (englishLocale, "en.tm")]) e files₂ e₂ ∧
      Interleaves reports [(englishLocale, "en.tm"), (frenchLocale, "fr.tm")] e e₁ done₁ ∧
      Interleaves reports [(englishLocale, "en.tm"), (frenchLocale, "fr.tm")] e e₂ done₂ ∧
      Ends reports
        (e, calls sharedOptions reports [(englishLocale, "en.tm"), (frenchLocale, "fr.tm")]) ∧
      Gives finish e₁ more e₁' ∧ Gives finish e₂ more e₂' ∧
      e₂'.disk.standing (.ofText "index.ts") = e₁'.disk.standing (.ofText "index.ts") ∧
      e₂'.disk.standing (.ofText "Locale.d.ts") = e₁'.disk.standing (.ofText "Locale.d.ts") ∧
      ∃ text₁ text₂, e₁'.disk.standing (.ofText "en_Locale.ts") = .file (.text text₁) ∧
        e₂'.disk.standing (.ofText "en_Locale.ts") = .file (.text text₂) ∧
        IsModule sharedOptions reports (englishLocale, "en.tm") text₁ ∧
        IsModule sharedOptions reports (englishLocale, "en.tm") text₂ := by
  obtain ⟨reports, hreports, hcompiles⟩ : ∃ reports,
      (checkCatalogs [englishLocale, frenchLocale]).reports = some reports ∧
        Compiles reports [(englishLocale, "en.tm"), (frenchLocale, "fr.tm")] := by
    have hrun : (checkCatalogs [englishLocale, frenchLocale]).reports.map (fun reports =>
        decide (Compiles reports [(englishLocale, "en.tm"), (frenchLocale, "fr.tm")])) = some true := by
      decide +kernel
    obtain ⟨reports, hreports, hdecide⟩ := Option.map_eq_some_iff.1 hrun
    exact ⟨reports, hreports, of_decide_eq_true hdecide⟩
  obtain ⟨e, files₁, files₂, e₁, e₂, done₁, done₂, more, -, e₁', -, hstart, hrun₁, hrun₂, h₁, h₂, hfinish,
    -⟩ := exists_runs hcompiles
  obtain ⟨hends, hany⟩ := any_order_same_output (by decide) hstart h₁ hfinish
  obtain ⟨-, e₂', hfinish₂, -, -, hsame, hmodules⟩ := hany e₂ done₂ h₂
  obtain ⟨-, -, -, -, hroom, -⟩ := id hcompiles
  have hnames : sharedOptions.moduleName englishLocale.id = "en_Locale.ts" ∧
      sharedOptions.moduleName frenchLocale.id = "fr_Locale.ts" := by decide +kernel
  have hother : ∀ name, isFileName (.ofText name) = true → name ≠ "en_Locale.ts" →
      name ≠ "fr_Locale.ts" → e₂'.disk.standing (.ofText name) = e₁'.disk.standing (.ofText name) := by
    intro name hname hen hfr
    obtain ⟨n, hn⟩ := exists_fileName name hname
    rw [Trail.ofText_eq_singleton hn]
    refine hsame.other [n] ?_
    rintro c hc ⟨path, place, hpath, hresolve, hq⟩
    have hbytes := (holds_concat [] n).name_unique hq
    have heq : name = sharedOptions.moduleName c.1.id :=
      RawText.ofText_injective (hn.symm.trans hbytes)
    simp only [List.mem_cons, List.not_mem_nil, or_false] at hc
    rcases hc with rfl | rfl
    · exact hen (heq.trans hnames.1)
    · exact hfr (heq.trans hnames.2)
  have halone : ∀ c ∈ [(englishLocale, "en.tm"), (frenchLocale, "fr.tm")],
      sharedOptions.moduleName c.1.id = sharedOptions.moduleName englishLocale.id →
        c = (englishLocale, "en.tm") := by
    intro c hc heq
    simp only [List.mem_cons, List.not_mem_nil, or_false] at hc
    rcases hc with rfl | rfl
    · rfl
    · rw [hnames.1, hnames.2] at heq
      exact absurd heq (by decide)
  obtain ⟨text₁, text₂, hmodule₁, hmodule₂, hfile₁, hfile₂⟩ := hmodules (.ofText "/") rfl
    (englishLocale, "en.tm") (by simp) halone
  rw [hnames.1] at hfile₁ hfile₂
  exact ⟨reports, e, e₁, e₂, done₁, done₂, more, e₁', e₂', files₁, files₂, hreports, hstart, hrun₁, hrun₂,
    h₁, h₂, hends hroom, hfinish, hfinish₂, hother _ (by decide) (by decide) (by decide),
    hother _ (by decide) (by decide) (by decide), text₁, text₂, standing_of_hasFile_root hfile₁,
    standing_of_hasFile_root hfile₂, hmodule₁, hmodule₂⟩

/-- A locale with one message. -/
def titledLocale (id title : String) : Catalog where
  id := id
  directives := []
  messages := .ofList [("title", ⟨.exposed, [.text title], ∅⟩)]

/-- Two locales with different identifiers whose modules have the same name. -/
def homeLocale : Catalog := titledLocale "en-US" "Home"
def hallLocale : Catalog := titledLocale "en_US" "Hall"

/-- The text of a module from its first message on. -/
def firstMessage (reports : Reports) (c : Catalog × String) : String :=
  textOf Piece.fixed ((modulePieces sharedOptions reports c.1 c.2).drop 3)

lemma fixed_modulePieces_ne {reports : Reports} (c c' : Catalog × String)
    (hlength : (firstMessage reports c).toList.length = (firstMessage reports c').toList.length)
    (hne : firstMessage reports c ≠ firstMessage reports c') :
    textOf Piece.fixed (modulePieces sharedOptions reports c.1 c.2) ≠
      textOf Piece.fixed (modulePieces sharedOptions reports c'.1 c'.2) := by
  have hsplit : ∀ a : Catalog × String, ∃ top,
      textOf Piece.fixed (modulePieces sharedOptions reports a.1 a.2) = top ++ firstMessage reports a := by
    intro a
    refine ⟨textOf Piece.fixed ((modulePieces sharedOptions reports a.1 a.2).take 3), ?_⟩
    rw [firstMessage, ← textOf_append, List.take_append_drop]
  obtain ⟨top, htop⟩ := hsplit c
  obtain ⟨top', htop'⟩ := hsplit c'
  rw [htop, htop']
  intro heq
  rw [← String.toList_inj, String.toList_append, String.toList_append] at heq
  exact hne (String.toList_inj.1 (List.append_inj_right' heq hlength))

/-- The two locales can be compiled, and their modules differ. -/
lemma exists_reports_home : ∃ reports,
    Compiles reports [(homeLocale, "en-US.tm"), (hallLocale, "en_US.tm")] ∧
      textOf Piece.fixed (modulePieces sharedOptions reports homeLocale "en-US.tm") ≠
        textOf Piece.fixed (modulePieces sharedOptions reports hallLocale "en_US.tm") := by
  have hrun : (checkCatalogs [homeLocale, hallLocale]).reports.map (fun reports => decide
      (Compiles reports [(homeLocale, "en-US.tm"), (hallLocale, "en_US.tm")] ∧
        (firstMessage reports (homeLocale, "en-US.tm")).toList.length =
          (firstMessage reports (hallLocale, "en_US.tm")).toList.length ∧
        firstMessage reports (homeLocale, "en-US.tm") ≠
          firstMessage reports (hallLocale, "en_US.tm"))) = some true := by
    decide +kernel
  obtain ⟨reports, -, hdecide⟩ := Option.map_eq_some_iff.1 hrun
  obtain ⟨hcompiles, hlength, hne⟩ := of_decide_eq_true hdecide
  refine ⟨reports, hcompiles, ?_⟩
  exact fixed_modulePieces_ne (homeLocale, "en-US.tm") (hallLocale, "en_US.tm") hlength hne

/-- The module that is compiled last is there in the end. -/
lemma standing_last {reports : Reports} (cs : List (Catalog × String)) {c : Catalog × String}
    {e e' : Emission} {files : List EmittedFile}
    (hbegun : Begun reports { options := sharedOptions, disk := usedDisk } e)
    (hplain : ∀ p ∈ modulePieces sharedOptions reports c.1 c.2, p.isText = true)
    (h : Gives (compileAll (cs ++ [c])) e files e') :
    ∃ q, Holds [] (.ofText (sharedOptions.moduleName c.1.id)) q ∧ e'.disk.standing q =
      .file (.text (textOf Piece.fixed (modulePieces sharedOptions reports c.1 c.2))) := by
  obtain ⟨first, between, second, hfirst, hsecond, rfl⟩ := gives_gather_append.1 h
  have hcompiled := compiled_compileAll hfirst
  have hoptions : between.options = sharedOptions := hcompiled.options.trans hbegun.options
  have hreports : between.modules.reports = some reports :=
    hcompiled.modules.trans (hbegun.modules (by simp [sharedOptions, rootOptions]))
  obtain ⟨hwrote, -⟩ := wrote_compile (by rw [hoptions]; rfl) hreports (gives_gather_one.1 hsecond)
    (at_root _ _)
  obtain ⟨text, q, hmem, hq, hfile⟩ := hwrote.written _ (List.mem_singleton_self _)
  rw [hoptions] at hmem hq
  obtain ⟨-, rfl⟩ := Prod.mk.inj (List.mem_singleton.1 hmem)
  rw [← localeModule_of_isText hplain between.modules.cacheKeys between.supply]
  exact ⟨q, hq, hfile⟩

/-- **Catalogs that share a module do depend on the order**: the module that is written last is the
one that stays. -/
theorem shared_module_depends_on_order :
    ¬ ∀ {o : TargetOptions} {reports : Reports} {d : Disk} {supply : Supply}
      {cs : List (Catalog × String)} {e e₁ e₂ e₁' e₂' : Emission} {done₁ done₂ : List Call}
      {more₁ more₂ : List EmittedFile}, (cs.map fun c => c.1.id).Nodup →
      Gives (start reports) { options := o, disk := d, supply } () e →
      Interleaves reports cs e e₁ done₁ → Interleaves reports cs e e₂ done₂ →
      Gives finish e₁ more₁ e₁' → Gives finish e₂ more₂ e₂' →
      ∀ path, o.modulesDir = some path → ∀ c ∈ cs, ∃ c' ∈ cs, ∃ text₁ text₂,
        IsModule o reports c' text₁ ∧ IsModule o reports c' text₂ ∧
        OutputDirectory.HasFile ⟨path, .modules⟩ e₁'.disk (o.moduleName c.1.id) text₁ ∧
        OutputDirectory.HasFile ⟨path, .modules⟩ e₂'.disk (o.moduleName c.1.id) text₂ := by
  intro hall
  obtain ⟨reports, hcompiles, hdiffer⟩ := exists_reports_home
  have hids : ([(homeLocale, "en-US.tm"), (hallLocale, "en_US.tm")].map fun c => c.1.id).Nodup :=
    by decide
  have hname : sharedOptions.moduleName hallLocale.id =
      sharedOptions.moduleName homeLocale.id := by decide +kernel
  obtain ⟨-, -, -, -, -, hplain⟩ := id hcompiles
  have hhome := hplain (homeLocale, "en-US.tm") (by simp)
  have hhall := hplain (hallLocale, "en_US.tm") (by simp)
  obtain ⟨e, files₁, files₂, e₁, e₂, done₁, done₂, more₁, more₂, e₁', e₂', hstart, hrun₁, hrun₂, h₁, h₂,
    hfinish₁, hfinish₂⟩ := exists_runs hcompiles
  have hbegun := begun_start hstart
  -- The module of the locale that came last is in the file.
  obtain ⟨q, hq, hlast₁⟩ := standing_last [(homeLocale, "en-US.tm")] hbegun hhall hrun₁
  obtain ⟨q', hq', hlast₂⟩ := standing_last [(hallLocale, "en_US.tm")] hbegun hhome hrun₂
  rw [hname] at hq
  have hstays₁ := standing_finish (h₁.complete hbegun) hids hfinish₁ (c := (homeLocale, "en-US.tm"))
    (by simp) hq
  have hstays₂ := standing_finish (h₂.complete hbegun) hids hfinish₂ (c := (homeLocale, "en-US.tm"))
    (by simp) hq'
  obtain ⟨c, hc, text₁, text₂, hmodule₁, hmodule₂, hfile₁, hfile₂⟩ := hall hids hstart h₁ h₂ hfinish₁
    hfinish₂ (.ofText "/") rfl (homeLocale, "en-US.tm") (by simp)
  obtain ⟨q₁, hq₁, hfile₁⟩ := hasFile_root_iff.1 hfile₁
  obtain ⟨q₂, hq₂, hfile₂⟩ := hasFile_root_iff.1 hfile₂
  cases hq₁.unique hq
  cases hq₂.unique hq'
  cases (hstays₁.trans hlast₁).symm.trans hfile₁
  cases (hstays₂.trans hlast₂).symm.trans hfile₂
  simp only [List.mem_cons, List.not_mem_nil, or_false] at hc
  rcases hc with rfl | rfl
  · exact hdiffer ((isModule_iff_of_isText hhome).1 hmodule₁).symm
  · exact hdiffer ((isModule_iff_of_isText hhall).1 hmodule₂)

end Polyglot.Generate
