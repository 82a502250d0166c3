import Polyglot.Proofs.AlikeDisks
import Polyglot.Proofs.OutputFiles

/-!
# The end of a run

When all catalogs are compiled, each target takes its turn: it writes its last file and removes those
of earlier runs. What it writes does not tell in which order the catalogs came.

* `Turn`: the turn of a target, as the disk sees it;
* `Turn.standing_eq`: what it leaves alone;
* `Turn.exists_alike`: it does the same to disks that are alike;
* `Complete`, `gives_finish_iff`: all catalogs have been noted, and the end of the run is two turns.
-/

namespace Polyglot

open Disk OutputDirectory

/-- The directory has a file with this name and text. -/
def OutputDirectory.HasFile (o : OutputDirectory) (d : Disk) (name text : String) : Prop :=
  ∃ place q, d.resolve o.path = .ok place ∧ Holds place (.ofText name) q ∧
    d.standing q = .file (.text text)

/-! ### Paths of files -/

/-- What is put at the end of a path, without a slash in it, is at the end of the last segment. -/
lemma slashSegments_append_of_not_mem {bs : RawText} (hbs : slash ∉ bs) (as : RawText) :
    ∃ init last, slashSegments (as ++ bs) = init ++ [last ++ bs] := by
  induction as with
  | nil => exact ⟨[], [], slashSegments_of_not_mem hbs⟩
  | cons a as ih =>
    obtain ⟨init, last, has⟩ := ih
    cases init with
    | nil =>
      rw [List.nil_append] at has
      rw [List.cons_append, slashSegments_cons has]
      by_cases ha : a = slash
      · exact ⟨[[]], last, by rw [if_pos ha]; rfl⟩
      · exact ⟨[], a :: last, by rw [if_neg ha]; rfl⟩
    | cons s init =>
      rw [List.cons_append] at has
      rw [List.cons_append, slashSegments_cons has]
      by_cases ha : a = slash
      · exact ⟨[] :: s :: init, last, by rw [if_pos ha]; rfl⟩
      · exact ⟨(a :: s) :: init, last, by rw [if_neg ha]; rfl⟩

lemma Path.exists_bytes_join (p q : Path) : ∃ before, (p.join q).bytes = before ++ q.bytes := by
  unfold Path.join
  split
  · exact ⟨[], rfl⟩
  · split
    · exact ⟨_, rfl⟩
    · exact ⟨p.bytes ++ [slash], by simp⟩

lemma FileName.isStep_append_ending (bs : RawText) (k : OutputKind) :
    IsStep (bs ++ .ofText k.ending) := by
  have hlength : 3 ≤ (bs ++ RawText.ofText k.ending).length := by
    rw [List.length_append]
    refine Nat.le_trans ?_ (Nat.le_add_left ..)
    cases k <;> decide
  have hshort : ∀ cs : RawText, cs.length < 3 → bs ++ .ofText k.ending ≠ cs := by
    rintro _ hcs rfl
    exact absurd hlength (Nat.not_le_of_lt hcs)
  exact ⟨hshort [] (by decide), hshort [dot] (by decide), hshort [dot, dot] (by decide)⟩

/-- A file whose name has an ending is in a place whose name has that ending, even if the name is a
path. -/
lemma OutputDirectory.hasEnding_of_resolve {o : OutputDirectory} {d : Disk} {k : OutputKind}
    {name : String} (hname : k.hasEnding name = true) {place : Trail}
    (h : d.resolve (o.filePath name) = .ok place) :
    ∃ (q : Trail) (last : FileName), place = q ++ [last] ∧ k.hasEnding last.shown = true := by
  obtain ⟨stem, hstem⟩ := OutputKind.hasEnding_iff.1 hname
  have hbytes : RawText.ofText name = .ofText (.ofList stem) ++ .ofText k.ending := by
    have hname : name = .ofList stem ++ k.ending := String.toList_inj.1 (by simpa using hstem.symm)
    rw [← RawText.ofText_append, hname]
  obtain ⟨init, last, hsteps⟩ :
      ∃ init last, (o.filePath name).steps = init ++ [last ++ .ofText k.ending] := by
    obtain ⟨before, hjoin⟩ := o.path.exists_bytes_join (.ofText name)
    have hslash : slash ∉ RawText.ofText k.ending := by cases k <;> decide
    rw [Path.steps, filePath, hjoin, Path.ofText, hbytes, ← List.append_assoc]
    exact slashSegments_append_of_not_mem hslash _
  have hwalk := (resolve_eq_ok_iff.1 h).2
  rw [Leads, hsteps, walk_append_iff] at hwalk
  obtain ⟨q, -, hlast⟩ := hwalk
  rw [walk_one_iff, step?_of_isStep (FileName.isStep_append_ending last k)] at hlast
  obtain ⟨-, n, hn, rfl⟩ := hlast
  refine ⟨q, n, rfl, OutputKind.hasEnding_iff.2 ?_⟩
  rw [FileName.shown, hn]
  exact RawText.suffix_shown (by cases k <;> decide) (List.suffix_append ..)

namespace Generate

/-! ### Turns -/

/-- The turn of a target: it writes a file and cleans its directory up. A target that is not wanted
does nothing. -/
inductive Turn (name content : String) (keep : List String) :
    Option OutputDirectory → Disk → Disk → Prop
  | pass (d : Disk) : Turn name content keep none d d
  | take {dir : OutputDirectory} {d d₁ d' : Disk} {removed : List String}
      (hwrite : dir.write d name content = (.ok (), d₁))
      (hclean : dir.cleanUp d₁ keep = (.ok removed, d')) : Turn name content keep (some dir) d d'

section Turn

variable {name content : String} {keep : List String} {dir : Option OutputDirectory} {d d' : Disk}

lemma standing_cleanUp_of_not_stale {o : OutputDirectory} {removed : List String}
    (h : o.cleanUp d keep = (.ok removed, d')) {q : Trail}
    (hq : ∀ place, o.At d place → ¬ o.IsStale place keep q) : d'.standing q = d.standing q := by
  rcases at_or_eq_of_cleanUp h with ⟨place, hat⟩ | rfl
  · obtain ⟨-, hdirectory, hfile⟩ := standing_cleanUp hat h
    refine standing_ext (hdirectory q) fun contents => ?_
    rw [hfile, and_iff_left (hq place hat)]
  · rfl

/-- A turn makes and removes no directories. -/
lemma Turn.directory_iff (h : Turn name content keep dir d d') :
    d'.current = d.current ∧ ∀ q, d.standing q = .directory ↔ d'.standing q = .directory := by
  cases h with
  | pass => exact ⟨rfl, fun _ => Iff.rfl⟩
  | take hwrite hclean =>
    obtain ⟨place, -, -, hputs⟩ := puts_resolve_of_write hwrite
    have hsame := hputs.directory_iff (by simp)
    rcases at_or_eq_of_cleanUp hclean with ⟨place, hat⟩ | rfl
    · obtain ⟨hcurrent, hdirectory, -⟩ := standing_cleanUp hat hclean
      exact ⟨hcurrent.trans hputs.current, fun q => (hsame q).trans (hdirectory q).symm⟩
    · exact ⟨hputs.current, hsame⟩

/-- **What a turn leaves alone**: all but the file that is written and those that are removed. -/
theorem Turn.standing_eq (h : Turn name content keep dir d d') {q : Trail}
    (hwritten : ∀ o ∈ dir, ∀ place, d.resolve (o.filePath name) = .ok place → q ≠ place)
    (hremoved : ∀ o ∈ dir, ∀ place, o.At d place → ¬ o.IsStale place keep q) :
    d'.standing q = d.standing q := by
  cases h with
  | pass => rfl
  | take hwrite hclean =>
    obtain ⟨place, hresolve, -, hputs⟩ := puts_resolve_of_write hwrite
    rw [standing_cleanUp_of_not_stale hclean,
      hputs.standing_of_ne (hwritten _ rfl place hresolve)]
    intro place' hat
    exact hremoved _ rfl place' ((At.puts hputs (by simp)).2 hat)

/-- The turn of the target for declarations leaves all modules alone, whatever the interface is
called. -/
lemma Turn.standing_of_module {o : TargetOptions} {path : Option Path}
    (h : Turn o.declarationName content keep (path.map (⟨·, .declarations⟩)) d d')
    (place : Trail) {file : FileName} (hfile : OutputKind.modules.owns file.shown = true) :
    d'.standing (place ++ [file]) = d.standing (place ++ [file]) := by
  have hnot : OutputKind.declarations.owns file.shown ≠ true := by
    intro h
    cases OutputKind.not_owns_both hfile h
  refine h.standing_eq ?_ ?_
  · rintro dir - place' hresolve rfl
    obtain ⟨q, last, heq, hlast⟩ := hasEnding_of_resolve
      (OutputKind.hasEnding_of_owns o.owns_declarationName) hresolve
    obtain ⟨-, hsame⟩ := List.append_inj' heq rfl
    exact hnot (List.singleton_inj.1 hsame ▸ hlast)
  · rintro dir hdir place' - ⟨name, heq, howns, -⟩
    obtain ⟨path, -, rfl⟩ := Option.map_eq_some_iff.1 hdir
    obtain ⟨-, hsame⟩ := List.append_inj' heq rfl
    exact hnot (List.singleton_inj.1 hsame ▸ howns)

/-- A file that is to be kept stays, unless it is written. -/
lemma Turn.standing_of_kept (h : Turn name content keep dir d d') (hname : IsSegment name)
    {file : FileName} (hkeep : file.shown ∈ keep) (hne : file.shown ≠ name) (place : Trail) :
    d'.standing (place ++ [file]) = d.standing (place ++ [file]) := by
  refine h.standing_eq ?_ ?_
  · rintro o - place' hresolve rfl
    obtain ⟨-, _, -, hholds⟩ := (resolve_filePath_iff hname).1 hresolve
    exact hne (FileName.shown_of_bytes ((holds_concat place file).name_unique hholds))
  · rintro o - place' - ⟨file', heq, -, hstale⟩
    obtain ⟨-, hlast⟩ := List.append_inj' heq rfl
    exact hstale (List.singleton_inj.1 hlast ▸ hkeep)

/-- The file that a turn writes is there at its end, if it is one of those to keep. -/
lemma Turn.standing_written {o : OutputDirectory} (h : Turn name content keep (some o) d d')
    (hname : IsSegment name) (hkeep : name ∈ keep) :
    ∃ place q, d.resolve o.path = .ok place ∧ d.standing place = .directory ∧
      Holds place (.ofText name) q ∧ d'.standing q = .file (.text content) := by
  cases h with
  | take hwrite hclean =>
    obtain ⟨place, q, hat, hq, hputs⟩ := puts_of_write hname hwrite
    refine ⟨place, q, hat.resolve (nameable_of_cleanUp hclean), hat.2, hq, ?_⟩
    rw [standing_cleanUp_of_not_stale hclean, hputs.standing_self]
    rintro place' - ⟨name', rfl, -, hstale⟩
    have hbytes := (holds_concat place' name').name_unique hq
    exact hstale (FileName.shown_of_bytes hbytes ▸ hkeep)

/-- **A turn on one of two disks that are alike** can be taken on the other. -/
theorem Turn.exists_alike {R : Trail → Contents → Contents → Prop} (hR : ∀ q x, R q x x)
    {d₁ : Disk} (halike : Alike R d d₁) (h : Turn name content keep dir d d') :
    ∃ d₁', Turn name content keep dir d₁ d₁' ∧ Alike R d' d₁' := by
  cases h with
  | pass => exact ⟨d₁, .pass d₁, halike⟩
  | take hwrite hclean =>
    obtain ⟨d₂, hwrite₂, halike₂⟩ := exists_write_alike halike hwrite fun place => hR place _
    obtain ⟨removed₂, d₁', hclean₂, halike₁'⟩ := exists_cleanUp_alike halike₂ hclean
    exact ⟨d₁', .take hwrite₂ hclean₂, halike₁'⟩

end Turn

/-! ### What has been noted -/

/-- What has been put in order does not tell the order it came in, if the key tells the entries
apart. -/
lemma mergeSort_eq_of_perm {α : Type} (key : α → String) {xs ys : List α} (h : xs.Perm ys)
    (hkey : ∀ a ∈ xs, ∀ b ∈ xs, key a = key b → a = b) :
    xs.mergeSort (fun a b => key a ≤ key b) = ys.mergeSort (fun a b => key a ≤ key b) := by
  have hsorted : ∀ zs : List α,
      (zs.mergeSort (fun a b => key a ≤ key b)).Pairwise fun a b => key a ≤ key b := by
    intro zs
    refine (List.pairwise_mergeSort ?_ ?_ zs).imp of_decide_eq_true
    · intro a b c hab hbc
      exact decide_eq_true (String.le_trans (of_decide_eq_true hab) (of_decide_eq_true hbc))
    · intro a b
      simpa using String.le_total (key a) (key b)
  have hperm := (List.mergeSort_perm xs (fun a b => key a ≤ key b)).trans
    (h.trans (List.mergeSort_perm ys (fun a b => key a ≤ key b)).symm)
  refine hperm.eq_of_pairwise ?_ (hsorted xs) (hsorted ys)
  intro a b ha hb hab hba
  refine hkey a (List.mem_mergeSort.1 ha) b ?_ (String.le_antisymm hab hba)
  exact h.mem_iff.2 (List.mem_mergeSort.1 hb)

/-- The wanted targets have noted all catalogs, in some order. -/
structure Complete (o : TargetOptions) (reports : Reports) (cs : List (Catalog × String))
    (e : Emission) : Prop where
  options : e.options = o
  modules : o.modulesDir ≠ none → e.modules.reports = some reports
  sources : o.modulesDir ≠ none → e.modules.sources.Perm (cs.map Prod.snd)
  locales : o.modulesDir ≠ none →
    e.modules.locales.Perm (cs.map fun c => CompiledLocale.ofCatalog o c.1)
  declarations : o.declarationsDir ≠ none → e.declarations.reports = some reports
  declared : o.declarationsDir ≠ none → e.declarations.sources.Perm (cs.map Prod.snd)

/-- The modules that are kept at the end. -/
def keptModules (o : TargetOptions) (cs : List (Catalog × String)) : List String :=
  indexName :: ((cs.map fun c => CompiledLocale.ofCatalog o c.1).mergeSort
    (fun a b => a.id ≤ b.id)).map (·.fileName)

/-- The files that are given back at the end. -/
def finalFiles (o : TargetOptions) (reports : Reports) : List EmittedFile :=
  (o.modulesDir.map fun _ => ⟨.modules, indexName, 0, 0⟩).toList ++
    (o.declarationsDir.map fun _ =>
      ⟨.declarations, o.declarationName, 0, reports.coverage.keys.size⟩).toList

lemma moduleName_mem_keptModules (o : TargetOptions) {cs : List (Catalog × String)}
    {c : Catalog × String} (hc : c ∈ cs) : o.moduleName c.1.id ∈ keptModules o cs := by
  refine List.mem_cons_of_mem _ (List.mem_map.2 ⟨.ofCatalog o c.1, ?_, rfl⟩)
  exact List.mem_mergeSort.2 (List.mem_map.2 ⟨c, hc, rfl⟩)

/-- The turns at the end leave the modules of the catalogs alone. -/
lemma standing_of_turns {o : TargetOptions} {cs : List (Catalog × String)} {content content' : String}
    {keep : List String} {dir : Option OutputDirectory} {path : Option Path} {d d₁ d' : Disk}
    (h : Turn indexName content (keptModules o cs) dir d d₁)
    (h' : Turn o.declarationName content' keep (path.map (⟨·, .declarations⟩)) d₁ d')
    {c : Catalog × String} (hc : c ∈ cs) {place q : Trail}
    (hq : Holds place (.ofText (o.moduleName c.1.id)) q) : d'.standing q = d.standing q := by
  obtain ⟨file, hfile, rfl⟩ := hq
  have hshown := FileName.shown_of_bytes hfile
  rw [h'.standing_of_module place (by rw [hshown]; exact o.owns_moduleName _)]
  refine h.standing_of_kept isSegment_indexName ?_ ?_ place
  · rw [hshown]
    exact moduleName_mem_keptModules o hc
  · rw [hshown]
    exact o.moduleName_ne_indexName _

namespace Emitting

/-- The target for modules forgets what it has noted. -/
def afterModules (e : Emission) (d : Disk) : Emission :=
  { e with
    disk := d
    modules := if e.options.modulesDir = none then e.modules
      else { e.modules with sources := [], locales := [] } }

section Finish

variable {o : TargetOptions} {reports : Reports} {cs : List (Catalog × String)} {e e' : Emission}
  {more : List EmittedFile}

lemma ofCatalog_eq_of_id_eq (hids : (cs.map fun c => c.1.id).Nodup) :
    ∀ a ∈ cs.map (fun c => CompiledLocale.ofCatalog o c.1),
      ∀ b ∈ cs.map (fun c => CompiledLocale.ofCatalog o c.1), a.id = b.id → a = b := by
  intro a ha b hb hab
  obtain ⟨c, hc, rfl⟩ := List.mem_map.1 ha
  obtain ⟨c', hc', rfl⟩ := List.mem_map.1 hb
  rw [List.inj_on_of_nodup_map hids hc hc' hab]

/-- The end of the target for modules is a turn. -/
lemma gives_turn_modules (h : Complete o reports cs e) (hids : (cs.map fun c => c.1.id).Nodup) :
    Gives (gather finishTarget (o.modulesDir.map (⟨·, .modules⟩)).toList) e more e' ↔
      ∃ d', Turn indexName (indexText o reports cs) (keptModules o cs)
          (o.modulesDir.map (⟨·, .modules⟩)) e.disk d' ∧
        more = (o.modulesDir.map fun _ => ⟨.modules, indexName, 0, 0⟩).toList ∧
        e' = afterModules e d' := by
  cases hdir : o.modulesDir with
  | none =>
    have hafter : afterModules e e.disk = e := by
      have hnone : e.options.modulesDir = none := by rw [h.options, hdir]
      rw [afterModules, if_pos hnone]
    simp only [Option.map_none, Option.toList_none, gather, gives_pure_iff]
    constructor
    · rintro ⟨rfl, rfl⟩
      exact ⟨e'.disk, .pass _, rfl, hafter.symm⟩
    · rintro ⟨d', ⟨⟩, rfl, rfl⟩
      exact ⟨rfl, hafter⟩
  | some path =>
    have hwanted : o.modulesDir ≠ none := by rw [hdir]; simp
    have hafter : ∀ d', afterModules e d' = { e with
        disk := d', modules := { e.modules with sources := [], locales := [] } } := by
      intro d'
      rw [afterModules, if_neg (by rw [h.options]; exact hwanted)]
    have hsources : e.modules.sources.mergeSort (fun a b => a ≤ b) =
        (cs.map Prod.snd).mergeSort (fun a b => a ≤ b) :=
      mergeSort_eq_of_perm id (h.sources hwanted) fun _ _ _ _ => id
    have hlocales : e.modules.locales.mergeSort (fun a b => a.id ≤ b.id) =
        (cs.map fun c => CompiledLocale.ofCatalog o c.1).mergeSort (fun a b => a.id ≤ b.id) :=
      (mergeSort_eq_of_perm CompiledLocale.id (h.locales hwanted).symm
        (ofCatalog_eq_of_id_eq hids)).symm
    have hindex : (indexOf e reports).text = indexText o reports cs := by
      rw [indexOf, h.options, hsources, hlocales]
      rfl
    simp only [Option.map_some, Option.toList_some, gives_gather_one]
    show Gives (finishModules ⟨path, .modules⟩) e more e' ↔ _
    rw [gives_finishModules_iff]
    constructor
    · rintro ⟨reports', d, removed, d', hreports', hwrite, hclean, rfl, rfl⟩
      cases (h.modules hwanted).symm.trans hreports'
      rw [hindex] at hwrite
      rw [hlocales] at hclean
      exact ⟨d', .take hwrite hclean, rfl, (hafter d').symm⟩
    · rintro ⟨d', hturn, rfl, rfl⟩
      rw [hafter]
      cases hturn with
      | take hwrite hclean =>
        rw [← hindex] at hwrite
        rw [keptModules, ← hlocales] at hclean
        exact ⟨reports, _, _, d', h.modules hwanted, hwrite, hclean, rfl, rfl⟩

/-- The end of the target for declarations is a turn. -/
lemma gives_turn_declarations (h : Complete o reports cs e) {d : Disk} :
    Gives (gather finishTarget (o.declarationsDir.map (⟨·, .declarations⟩)).toList)
        (afterModules e d) more e' ↔
      ∃ d', Turn o.declarationName (declarationText o reports cs) [o.declarationName]
          (o.declarationsDir.map (⟨·, .declarations⟩)) d d' ∧
        more = (o.declarationsDir.map fun _ =>
          ⟨.declarations, o.declarationName, 0, reports.coverage.keys.size⟩).toList ∧
        e' = afterModules e d' := by
  cases hdir : o.declarationsDir with
  | none =>
    simp only [Option.map_none, Option.toList_none, gather, gives_pure_iff]
    constructor
    · rintro ⟨rfl, rfl⟩
      exact ⟨d, .pass _, rfl, rfl⟩
    · rintro ⟨d', ⟨⟩, rfl, rfl⟩
      exact ⟨rfl, rfl⟩
  | some path =>
    have hwanted : o.declarationsDir ≠ none := by rw [hdir]; simp
    have hsources : e.declarations.sources.mergeSort (fun a b => a ≤ b) =
        (cs.map Prod.snd).mergeSort (fun a b => a ≤ b) :=
      mergeSort_eq_of_perm id (h.declared hwanted) fun _ _ _ _ => id
    simp only [Option.map_some, Option.toList_some, gives_gather_one]
    show Gives (finishDeclarations ⟨path, .declarations⟩) (afterModules e d) more e' ↔ _
    rw [gives_finishDeclarations_iff, afterModules, h.options, hsources]
    constructor
    · rintro ⟨reports', d₁, removed, d', hreports', hwrite, hclean, rfl, rfl⟩
      cases (h.declarations hwanted).symm.trans hreports'
      exact ⟨d', .take hwrite hclean, rfl, by rw [afterModules, h.options]⟩
    · rintro ⟨d', hturn, rfl, rfl⟩
      cases hturn with
      | take hwrite hclean =>
        exact ⟨reports, _, _, d', h.declarations hwanted, hwrite, hclean, rfl,
          by rw [afterModules, h.options]⟩

/-- **The end of a run is two turns**, whatever the order in which catalogs were noted. -/
theorem gives_finish_iff (h : Complete o reports cs e) (hids : (cs.map fun c => c.1.id).Nodup) :
    Gives finish e more e' ↔ ∃ d d',
      Turn indexName (indexText o reports cs) (keptModules o cs)
        (o.modulesDir.map (⟨·, .modules⟩)) e.disk d ∧
      Turn o.declarationName (declarationText o reports cs) [o.declarationName]
        (o.declarationsDir.map (⟨·, .declarations⟩)) d d' ∧
      more = finalFiles o reports ∧ e' = afterModules e d' := by
  simp only [finish, gives_bind_iff, gives_get_iff]
  constructor
  · rintro ⟨_, _, ⟨rfl, rfl⟩, hgather⟩
    rw [h.options, directories] at hgather
    obtain ⟨first, between, second, hfirst, hsecond, rfl⟩ := gives_gather_append.1 hgather
    obtain ⟨d, hturn, rfl, rfl⟩ := (gives_turn_modules h hids).1 hfirst
    obtain ⟨d', hturn', rfl, rfl⟩ := (gives_turn_declarations h).1 hsecond
    exact ⟨d, d', hturn, hturn', rfl, rfl⟩
  · rintro ⟨d, d', hturn, hturn', rfl, rfl⟩
    refine ⟨e, e, ⟨rfl, rfl⟩, ?_⟩
    rw [h.options, directories]
    exact gives_gather_append.2 ⟨_, afterModules e d, _,
      (gives_turn_modules h hids).2 ⟨d, hturn, rfl, rfl⟩,
      (gives_turn_declarations h).2 ⟨d', hturn', rfl, rfl⟩, rfl⟩

/-- The end of a run leaves the modules of the catalogs alone. -/
lemma standing_finish (h : Complete o reports cs e) (hids : (cs.map fun c => c.1.id).Nodup)
    (hfinish : Gives finish e more e') {c : Catalog × String} (hc : c ∈ cs) {place q : Trail}
    (hq : Holds place (.ofText (o.moduleName c.1.id)) q) :
    e'.disk.standing q = e.disk.standing q := by
  obtain ⟨d, d', hturn, hturn', rfl, rfl⟩ := (gives_finish_iff h hids).1 hfinish
  exact standing_of_turns hturn hturn' hc hq

end Finish

end Emitting

end Generate

end Polyglot
