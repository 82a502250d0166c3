import Polyglot.Generate.Directory
import Polyglot.Proofs.Standing
import Mathlib.Data.List.TakeWhile

/-!
# Changes of a disk

To write a file, to remove one and to make a directory each put something at one place, in a directory
that is there. All else stays as it was. What is done in an output directory is told by these changes.

* `Puts`: one change, with `writeText_iff`, `removeFile_iff`, `grows_makeDirectory`;
* `Grows`: directories have been made, and no file was touched; `grows_create`;
* `OutputDirectory.At`: where an output directory is, with `puts_of_write` and `standing_cleanUp`.
-/

namespace Polyglot

namespace Disk

/-- Something has been put at a place, where no directory was. -/
structure Puts (d : Disk) (place : Trail) (what : Standing) (d' : Disk) : Prop where
  current : d'.current = d.current
  standing : ∀ q, d'.standing q = if q = place then what else d.standing q
  old : d.standing place ≠ .directory

section Puts

variable {d d' : Disk} {place : Trail} {what : Standing}

lemma Puts.standing_self (h : Puts d place what d') : d'.standing place = what := by
  rw [h.standing, if_pos rfl]

lemma Puts.standing_of_ne (h : Puts d place what d') {q : Trail} (hq : q ≠ place) :
    d'.standing q = d.standing q := by
  rw [h.standing, if_neg hq]

lemma Puts.directory_iff (h : Puts d place what d') (hwhat : what ≠ .directory) (q : Trail) :
    d.standing q = .directory ↔ d'.standing q = .directory := by
  by_cases hq : q = place
  · subst hq
    rw [h.standing_self]
    exact iff_of_false h.old hwhat
  · rw [h.standing_of_ne hq]

end Puts

/-- What a path leads to, unless it is a directory, is a name in a directory. -/
lemma puts_put {d : Disk} {p : Path} {segments : List RawText} {place : Trail} (hne : segments ≠ [])
    (hleads : d.Leads p segments place) (hold : d.standing place ≠ .directory) (what : Standing) :
    Puts d place what (d.put place what) := by
  obtain ⟨init, s, rfl⟩ : ∃ init s, segments = init ++ [s] :=
    ⟨segments.dropLast, segments.getLast hne, (List.dropLast_append_getLast hne).symm⟩
  obtain ⟨parent, -, hlast⟩ := walk_append_iff.1 hleads
  obtain ⟨hdir, hnext⟩ := walk_one_iff.1 hlast
  have hs : FileName.IsStep s := by
    by_contra hs
    exact hold (standing_step?_of_not_isStep hs hdir hnext)
  obtain ⟨name, -, rfl⟩ := (step?_of_isStep hs).1 hnext
  obtain ⟨hcurrent, hstanding⟩ := standing_put hdir hold what
  exact ⟨hcurrent, hstanding, hold⟩

lemma puts_of_resolve {d : Disk} {p : Path} {place : Trail} (hplace : d.resolve p = .ok place)
    (hold : d.standing place ≠ .directory) (what : Standing) :
    Puts d place what (d.put place what) :=
  puts_put (slashSegments_ne_nil p.bytes) (resolve_eq_ok_iff.1 hplace).2 hold what

/-! ### Files -/

/-- A path that leads to a file, or to nothing yet, does not end with a slash. -/
lemma slashedName?_eq_none {d : Disk} {p : Path} {place : Trail} (hleads : d.Leads p p.steps place)
    (hold : d.standing place ≠ .directory) : slashedName? p.steps = none := by
  obtain ⟨init, s, hsteps⟩ := p.exists_steps_concat
  rw [hsteps] at hleads
  obtain ⟨parent, -, hlast⟩ := walk_append_iff.1 hleads
  obtain ⟨hdir, hnext⟩ := walk_one_iff.1 hlast
  have hs : s ≠ [] := by
    rintro rfl
    exact hold (standing_step?_of_not_isStep (by simp [FileName.IsStep]) hdir hnext)
  unfold slashedName?
  rw [hsteps, if_neg (by simpa using hs)]

lemma resolveFile_eq_ok_iff {d : Disk} {p : Path} {place : Trail} :
    d.resolveFile p = .ok place ↔ d.resolve p = .ok place ∧ slashedName? p.steps = none := by
  rw [resolve_eq_ok_iff]
  unfold resolveFile
  cases hsegs : segments p with
  | error e =>
    constructor
    · rintro ⟨⟩
    · rintro ⟨⟨hp, -⟩, -⟩
      cases hsegs.symm.trans (segments_eq_ok_iff.2 ⟨hp, rfl⟩)
  | ok segs =>
    obtain ⟨hp, rfl⟩ := segments_eq_ok_iff.1 hsegs
    rw [and_iff_right hp]
    cases hslashed : slashedName? p.steps with
    | none => simp [hslashed, Leads]
    | some s =>
      simp only [hslashed, reduceCtorEq, and_false, iff_false]
      cases d.walk (d.origin p) ((trimEnd p.steps).dropLast ++ [[]]) <;> simp

/-- When a file can be written. -/
theorem writeText_iff {d d' : Disk} {p : Path} {value : String} :
    d.writeText p value = .ok d' ↔
      ∃ place, d.resolve p = .ok place ∧ d.standing place ≠ .directory ∧
        d' = d.put place (.file (.text value)) := by
  unfold writeText
  constructor
  · intro h
    cases hresolve : d.resolveFile p with
    | error e => simp only [hresolve] at h; cases h
    | ok place =>
      simp only [hresolve] at h
      have hplace := (resolveFile_eq_ok_iff.1 hresolve).1
      cases hstanding : d.standing place with
      | directory => simp only [hstanding] at h; cases h
      | nothing | file =>
        simp only [hstanding] at h
        exact ⟨place, hplace, by simp [hstanding], (Except.ok.inj h).symm⟩
  · rintro ⟨place, hplace, hold, rfl⟩
    have hslashed := slashedName?_eq_none (resolve_eq_ok_iff.1 hplace).2 hold
    rw [resolveFile_eq_ok_iff.2 ⟨hplace, hslashed⟩]
    cases hstanding : d.standing place with
    | directory => exact absurd hstanding hold
    | nothing | file => simp only [hstanding]

/-- When a file can be removed. -/
theorem removeFile_iff {d d' : Disk} {p : Path} :
    d.removeFile p = .ok d' ↔
      ∃ place contents, d.resolve p = .ok place ∧ d.standing place = .file contents ∧
        d' = d.put place .nothing := by
  unfold removeFile
  cases d.resolve p with
  | error e => simp
  | ok place =>
    cases hstanding : d.standing place with
    | nothing | directory => simp [hstanding]
    | file contents => simp [hstanding, eq_comm]

/-! ### Directories -/

/-- Directories have been made, and nothing else has happened. -/
structure Grows (d d' : Disk) : Prop where
  current : d'.current = d.current
  file_iff : ∀ q contents, d'.standing q = .file contents ↔ d.standing q = .file contents

lemma grows_refl (d : Disk) : Grows d d :=
  ⟨rfl, fun _ _ => Iff.rfl⟩

lemma Grows.trans {d d' d'' : Disk} (h : Grows d d') (h' : Grows d' d'') : Grows d d'' where
  current := h'.current.trans h.current
  file_iff q contents := (h'.file_iff q contents).trans (h.file_iff q contents)

lemma Puts.grows {d d' : Disk} {place : Trail} (h : Puts d place .directory d')
    (hold : d.standing place = .nothing) : Grows d d' where
  current := h.current
  file_iff q contents := by
    by_cases hq : q = place
    · subst hq
      rw [h.standing_self, hold]
      simp
    · rw [h.standing_of_ne hq]

/-- Only the root has no segments besides empty ones. -/
lemma isAbsolute_of_trimEnd_eq_nil {p : Path} (hp : p.Nameable) (h : trimEnd p.steps = []) :
    p.isAbsolute = true := by
  have hall : ∀ s ∈ p.steps, s = [] := by
    intro s hs
    unfold trimEnd at h
    rw [List.reverse_eq_nil_iff, List.dropWhile_eq_nil_iff] at h
    simpa using h s (List.mem_reverse.2 hs)
  obtain ⟨b, bs, hbs⟩ := List.exists_cons_of_ne_nil hp.2.1
  obtain ⟨t, ts, ht⟩ := List.exists_cons_of_ne_nil (slashSegments_ne_nil bs)
  have hb : b = slash := by
    by_contra hb
    have hfirst : b :: t ∈ p.steps := by
      simp [Path.steps, hbs, slashSegments_cons ht, hb]
    cases hall _ hfirst
  simp [Path.isAbsolute, hbs, hb]

lemma grows_makeDirectory {d d' : Disk} {p : Path} (h : d.makeDirectory p = .ok d') :
    Grows d d' := by
  unfold makeDirectory resolveDirectory at h
  cases hsegs : segments p with
  | error e => rw [hsegs] at h; cases h
  | ok segs =>
    rw [hsegs] at h
    obtain ⟨hp, rfl⟩ := segments_eq_ok_iff.1 hsegs
    cases hwalk : d.walk (d.origin p) (trimEnd p.steps) with
    | error e => simp only [hwalk] at h; cases h
    | ok place =>
      simp only [hwalk] at h
      cases hstanding : d.standing place with
      | directory | file => simp only [hstanding] at h; cases h
      | nothing =>
        simp only [hstanding] at h
        cases h
        have hne : trimEnd p.steps ≠ [] := by
          intro hnil
          rw [hnil, origin, if_pos (isAbsolute_of_trimEnd_eq_nil hp hnil)] at hwalk
          rw [← Except.ok.inj hwalk, standing_root] at hstanding
          cases hstanding
        exact (puts_put hne hwalk (by simp [hstanding]) .directory).grows hstanding

lemma grows_ensureDirectory {d d' : Disk} {p : Path} (h : d.ensureDirectory p = .ok d') :
    Grows d d' := by
  unfold ensureDirectory at h
  cases hmake : d.makeDirectory p with
  | ok d₁ =>
    rw [hmake] at h
    cases h
    exact grows_makeDirectory hmake
  | error e =>
    simp only [hmake] at h
    split at h
    · cases h
      exact grows_refl d
    · cases h

lemma grows_makeChain (d : Disk) (ps : List Path) : Grows d (d.makeChain ps).2 := by
  induction ps generalizing d with
  | nil => exact grows_refl d
  | cons p ps ih =>
    unfold makeChain
    split
    · exact grows_refl d
    · cases hfirst : d.ensureDirectory p with
      | ok d₁ => exact grows_ensureDirectory hfirst
      | error e =>
        cases e with
        | notFound =>
          rcases hchain : d.makeChain ps with ⟨_ | _, d₁⟩
          · have hgrows := ih d
            rw [hchain] at hgrows
            simpa [hchain] using hgrows
          · have hgrows := ih d
            rw [hchain] at hgrows
            cases hsecond : d₁.ensureDirectory p with
            | ok d₂ => simpa [hchain, hsecond] using hgrows.trans (grows_ensureDirectory hsecond)
            | error e => simpa [hchain, hsecond] using hgrows
        | alreadyExists | notADirectory | isADirectory | nameTooLong | zeroCharacter | notText =>
          exact grows_refl d

lemma listing_eq_ok_iff {d : Disk} {p : Path} {inside : List (FileName × Standing)} :
    d.listing p = .ok inside ↔ ∃ place, d.resolve p = .ok place ∧
      ((d.standing place = .directory ∧ inside = d.children place) ∨
        (∃ contents, d.standing place = .file contents) ∧ inside = []) := by
  unfold listing
  cases d.resolve p with
  | error e => simp
  | ok place =>
    cases hstanding : d.standing place with
    | nothing | directory | file => simp [hstanding, eq_comm]

end Disk

/-! ### Output directories -/

namespace OutputDirectory

open Disk

/-- The output directory is the directory at this place. -/
def At (o : OutputDirectory) (d : Disk) (place : Trail) : Prop :=
  d.Leads o.path o.path.steps place ∧ d.standing place = .directory

lemma At.unique {o : OutputDirectory} {d : Disk} {place place' : Trail} (h : o.At d place)
    (h' : o.At d place') : place = place' :=
  h.1.unique h'.1

lemma At.congr {o : OutputDirectory} {d d' : Disk} (hcurrent : d'.current = d.current)
    (h : ∀ q, d.standing q = .directory ↔ d'.standing q = .directory) {place : Trail} :
    o.At d place ↔ o.At d' place := by
  unfold At
  rw [leads_congr hcurrent.symm h, h]

lemma At.puts {o : OutputDirectory} {d d' : Disk} {place q : Trail} {what : Standing}
    (h : Puts d q what d') (hwhat : what ≠ .directory) : o.At d place ↔ o.At d' place :=
  At.congr h.current (h.directory_iff hwhat)

lemma At.resolve {o : OutputDirectory} {d : Disk} {place : Trail} (h : o.At d place)
    (hpath : o.path.Nameable) : d.resolve o.path = .ok place :=
  resolve_eq_ok_iff.2 ⟨hpath, h.1⟩

lemma grows_create {o : OutputDirectory} {d d' : Disk} (h : o.create d = (.ok (), d')) :
    Grows d d' := by
  have hd : (d.makeDirectories o.path).2 = d' := congrArg Prod.snd h
  rw [← hd]
  exact grows_makeChain d _

lemma write_eq_ok_iff {o : OutputDirectory} {d d' : Disk} {name content : String} :
    o.write d name content = (.ok (), d') ↔ d.writeText (o.filePath name) content = .ok d' := by
  unfold write
  cases d.writeText (o.filePath name) content <;> simp

lemma resolve_filePath_iff {o : OutputDirectory} {d : Disk} {name : String} (hname : IsSegment name)
    {q : Trail} : d.resolve (o.filePath name) = .ok q ↔
      (o.filePath name).Nameable ∧ ∃ place, o.At d place ∧ Holds place (.ofText name) q := by
  rw [resolve_eq_ok_iff]
  refine and_congr_right fun _ => ?_
  rw [filePath, Path.ofText, leads_join_iff hname.step hname.noSlash]
  simp only [At, and_assoc]

/-- **A file that is written is at its name in the output directory.** -/
theorem puts_of_write {o : OutputDirectory} {d d' : Disk} {name content : String}
    (hname : IsSegment name) (h : o.write d name content = (.ok (), d')) :
    ∃ place q, o.At d place ∧ Holds place (.ofText name) q ∧
      Puts d q (.file (.text content)) d' := by
  obtain ⟨q, hresolve, hold, rfl⟩ := writeText_iff.1 (write_eq_ok_iff.1 h)
  obtain ⟨-, place, hat, hq⟩ := (resolve_filePath_iff hname).1 hresolve
  exact ⟨place, q, hat, hq, puts_of_resolve hresolve hold _⟩

/-- What is left when files have been removed one by one. -/
lemma standing_removeAll {o : OutputDirectory} {place : Trail} {names : List FileName} {d d' : Disk}
    (hat : o.At d place) (h : o.removeAll d names = (.ok (), d')) :
    d'.current = d.current ∧ (∀ q, d'.standing q = .directory ↔ d.standing q = .directory) ∧
      ∀ q contents, d'.standing q = .file contents ↔
        d.standing q = .file contents ∧ ∀ name ∈ names, q ≠ place ++ [name] := by
  induction names generalizing d with
  | nil =>
    cases h
    exact ⟨rfl, fun q => Iff.rfl, fun q contents => by simp⟩
  | cons name names ih =>
    unfold removeAll at h
    cases hremove : d.removeFile (o.path.join name.toPath) with
    | error e => simp only [hremove] at h; cases h
    | ok d₁ =>
      simp only [hremove] at h
      obtain ⟨q₁, contents, hresolve, hfile, rfl⟩ := removeFile_iff.1 hremove
      obtain ⟨place', hleads, hdir, rfl⟩ := leads_join_name_iff.1 (resolve_eq_ok_iff.1 hresolve).2
      cases hat.unique ⟨hleads, hdir⟩
      have hputs := puts_of_resolve hresolve (by simp [hfile]) .nothing
      obtain ⟨hcurrent, hdirs, hfiles⟩ := ih ((At.puts hputs (by simp)).1 hat) h
      refine ⟨hcurrent.trans hputs.current, fun q => ?_, fun q contents => ?_⟩
      · rw [hdirs, ← hputs.directory_iff (by simp)]
      · rw [hfiles, hputs.standing]
        by_cases hq : q = place ++ [name]
        · simp [hq]
        · simp [hq]

lemma mem_stale_iff {o : OutputDirectory} {keep : List String} {inside : List (FileName × Standing)}
    {name : FileName} :
    name ∈ o.stale keep inside ↔ o.kind.owns name.shown = true ∧ name.shown ∉ keep ∧
      ∃ contents, (name, Standing.file contents) ∈ inside := by
  unfold stale
  rw [List.mem_filterMap]
  constructor
  · rintro ⟨⟨a, what⟩, hmem, hsome⟩
    cases what with
    | nothing | directory => cases hsome
    | file contents =>
      simp only at hsome
      split at hsome
      · rename_i hstale
        cases hsome
        rw [Bool.and_eq_true, Bool.not_eq_true', List.contains_eq_mem, decide_eq_false_iff_not]
          at hstale
        exact ⟨hstale.1, hstale.2, contents, hmem⟩
      · cases hsome
  · rintro ⟨howns, hkeep, contents, hmem⟩
    exact ⟨_, hmem, by simp [howns, hkeep]⟩

lemma stale_sublist (o : OutputDirectory) (keep : List String) (inside : List (FileName × Standing)) :
    (o.stale keep inside).Sublist (inside.map Prod.fst) := by
  induction inside with
  | nil => exact List.Sublist.slnil
  | cons e inside ih =>
    unfold stale at ih ⊢
    obtain ⟨name, what⟩ := e
    rw [List.filterMap_cons, List.map_cons]
    cases what with
    | nothing | directory => exact ih.cons name
    | file contents =>
      by_cases hstale : (o.kind.owns name.shown && !keep.contains name.shown) = true
      · simp only [if_pos hstale]
        exact ih.cons_cons name
      · simp only [if_neg hstale]
        exact ih.cons name

/-- The place of a file that belongs to the kind and is not to be kept. -/
def IsStale (o : OutputDirectory) (place : Trail) (keep : List String) (q : Trail) : Prop :=
  ∃ name : FileName, q = place ++ [name] ∧ o.kind.owns name.shown = true ∧ name.shown ∉ keep

/-- When cleaning up succeeds: the directory can be listed, and what is stale can be removed. -/
lemma cleanUp_eq_ok_iff {o : OutputDirectory} {d d' : Disk} {keep removed : List String} :
    o.cleanUp d keep = (.ok removed, d') ↔ ∃ inside, d.listing o.path = .ok inside ∧
      removed = (o.stale keep inside).map FileName.shown ∧
      o.removeAll d (o.stale keep inside) = (.ok (), d') := by
  unfold cleanUp
  cases hlisting : d.listing o.path with
  | error e => simp
  | ok inside =>
    simp only [Except.ok.injEq, exists_eq_left']
    constructor
    · intro h
      rcases hremove : o.removeAll d (o.stale keep inside) with ⟨_ | _, d₂⟩
      · rw [hremove] at h
        cases h
      · rw [hremove] at h
        cases h
        exact ⟨rfl, rfl⟩
    · rintro ⟨rfl, hremove⟩
      rw [hremove]
      rfl

/-- A directory that was cleaned up has a path that can be followed. -/
lemma nameable_of_cleanUp {o : OutputDirectory} {d d' : Disk} {keep removed : List String}
    (h : o.cleanUp d keep = (.ok removed, d')) : o.path.Nameable := by
  obtain ⟨inside, hlisting, -, -⟩ := cleanUp_eq_ok_iff.1 h
  obtain ⟨place, hresolve, -⟩ := listing_eq_ok_iff.1 hlisting
  exact (resolve_eq_ok_iff.1 hresolve).1

/-- What was listed is what is directly inside. -/
lemma At.listing {o : OutputDirectory} {d : Disk} {place : Trail} (hat : o.At d place)
    {inside : List (FileName × Standing)} (h : d.listing o.path = .ok inside) :
    inside = d.children place := by
  obtain ⟨place', hresolve, hinside⟩ := listing_eq_ok_iff.1 h
  cases hat.1.unique (resolve_eq_ok_iff.1 hresolve).2
  rcases hinside with ⟨-, rfl⟩ | ⟨⟨contents, hfile⟩, -⟩
  · rfl
  · cases hat.2.symm.trans hfile

/-- **What is left after cleaning up**: all directories, and all files but those of the directory that
belong to its kind and are not to be kept. -/
theorem standing_cleanUp {o : OutputDirectory} {d d' : Disk} {keep removed : List String}
    {place : Trail} (hat : o.At d place) (h : o.cleanUp d keep = (.ok removed, d')) :
    d'.current = d.current ∧ (∀ q, d'.standing q = .directory ↔ d.standing q = .directory) ∧
      ∀ q contents, d'.standing q = .file contents ↔
        d.standing q = .file contents ∧ ¬ o.IsStale place keep q := by
  obtain ⟨inside, hlisting, -, hremove⟩ := cleanUp_eq_ok_iff.1 h
  obtain rfl := hat.listing hlisting
  obtain ⟨hcurrent, hdirs, hfiles⟩ := standing_removeAll hat hremove
  refine ⟨hcurrent, hdirs, fun q contents => ?_⟩
  rw [hfiles]
  refine and_congr_right fun hfile => ?_
  constructor
  · rintro hkept ⟨name, rfl, howns, hkeep⟩
    exact hkept name (mem_stale_iff.2
      ⟨howns, hkeep, contents, mem_children_iff.2 ⟨by simp, hfile⟩⟩) rfl
  · rintro hkept name hname rfl
    obtain ⟨howns, hkeep, -⟩ := mem_stale_iff.1 hname
    exact hkept ⟨name, rfl, howns, hkeep⟩

lemma exists_removeAll {o : OutputDirectory} {place : Trail} {names : List FileName}
    (hnodup : names.Nodup) (hnames : ∀ name ∈ names, (o.path.join name.toPath).Nameable) {d : Disk}
    (hfiles : ∀ name ∈ names, ∃ contents, d.standing (place ++ [name]) = .file contents)
    (hat : o.At d place) : ∃ d', o.removeAll d names = (.ok (), d') := by
  induction names generalizing d with
  | nil => exact ⟨d, rfl⟩
  | cons name names ih =>
    obtain ⟨contents, hfile⟩ := hfiles name (List.mem_cons_self ..)
    have hresolve : d.resolve (o.path.join name.toPath) = .ok (place ++ [name]) :=
      resolve_eq_ok_iff.2 ⟨hnames name (List.mem_cons_self ..),
        leads_join_name_iff.2 ⟨place, hat.1, hat.2, rfl⟩⟩
    have hputs := puts_of_resolve hresolve (by simp [hfile]) .nothing
    have hrest : ∀ a ∈ names, ∃ contents,
        (d.put (place ++ [name]) .nothing).standing (place ++ [a]) = .file contents := by
      intro a ha
      have hne : a ≠ name := fun h => (List.nodup_cons.1 hnodup).1 (h ▸ ha)
      rw [hputs.standing_of_ne (by simpa using hne)]
      exact hfiles a (List.mem_cons_of_mem _ ha)
    obtain ⟨d', hremove⟩ := ih (List.nodup_cons.1 hnodup).2
      (fun a ha => hnames a (List.mem_cons_of_mem _ ha)) hrest ((At.puts hputs (by simp)).1 hat)
    refine ⟨d', ?_⟩
    unfold removeAll
    rw [removeFile_iff.2 ⟨_, contents, hresolve, hfile, rfl⟩]
    exact hremove

/-- Cleaning up succeeds unless the path of a file that is to be removed is too long. -/
theorem exists_cleanUp {o : OutputDirectory} {d : Disk} {place : Trail} (hat : o.At d place)
    (hpath : o.path.Nameable) (keep : List String)
    (hroom : ∀ (name : FileName) contents, o.kind.owns name.shown = true → name.shown ∉ keep →
      d.standing (place ++ [name]) = .file contents → (o.path.join name.toPath).Nameable) :
    ∃ removed d', o.cleanUp d keep = (.ok removed, d') := by
  have hlisting : d.listing o.path = .ok (d.children place) :=
    listing_eq_ok_iff.2 ⟨place, hat.resolve hpath, Or.inl ⟨hat.2, rfl⟩⟩
  have hstale : ∀ name ∈ o.stale keep (d.children place), o.kind.owns name.shown = true ∧
      name.shown ∉ keep ∧ ∃ contents, d.standing (place ++ [name]) = .file contents := by
    intro name hname
    obtain ⟨howns, hkeep, contents, hmem⟩ := mem_stale_iff.1 hname
    exact ⟨howns, hkeep, contents, (mem_children_iff.1 hmem).2⟩
  obtain ⟨d', hremove⟩ := exists_removeAll ((d.nodup_children place).sublist (stale_sublist o keep _))
    (fun name hname => by
      obtain ⟨howns, hkeep, contents, hfile⟩ := hstale name hname
      exact hroom name contents howns hkeep hfile)
    (fun name hname => (hstale name hname).2.2) hat
  exact ⟨_, d', cleanUp_eq_ok_iff.2 ⟨_, hlisting, rfl, hremove⟩⟩

/-- A file can be written and the directory cleaned up unless a path gets too long. -/
lemma exists_write_cleanUp {o : OutputDirectory} {d : Disk} {place : Trail} (hat : o.At d place)
    (hpath : o.path.Nameable) (hroom : ∀ name : FileName, (o.path.join name.toPath).Nameable)
    {n : FileName} {name : String} (hname : n.bytes = .ofText name)
    (hfree : d.standing (place ++ [n]) ≠ .directory) (content : String) (keep : List String) :
    ∃ d₁ removed d₂, o.write d name content = (.ok (), d₁) ∧
      o.cleanUp d₁ keep = (.ok removed, d₂) ∧
      ∀ q, d₂.standing q = .directory ↔ d.standing q = .directory := by
  have hfile : o.filePath name = o.path.join n.toPath := by
    rw [filePath, FileName.toPath, hname]
    rfl
  have hresolve : d.resolve (o.filePath name) = .ok (place ++ [n]) := by
    rw [resolve_eq_ok_iff, hfile]
    exact ⟨hroom n, leads_join_name_iff.2 ⟨place, hat.1, hat.2, rfl⟩⟩
  have hwrite : o.write d name content = (.ok (), d.put (place ++ [n]) (.file (.text content))) :=
    write_eq_ok_iff.2 (writeText_iff.2 ⟨_, hresolve, hfree, rfl⟩)
  have hputs := puts_of_resolve hresolve hfree (.file (.text content))
  have hat₁ := (At.puts hputs (by simp)).1 hat
  obtain ⟨removed, d₂, hclean⟩ := exists_cleanUp hat₁ hpath keep fun a _ _ _ _ => hroom a
  refine ⟨_, removed, d₂, hwrite, hclean, fun q => ?_⟩
  rw [(standing_cleanUp hat₁ hclean).2.1, hputs.directory_iff (by simp)]

end OutputDirectory

end Polyglot
