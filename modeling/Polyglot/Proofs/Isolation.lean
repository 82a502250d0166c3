import Polyglot.Project.Run
import Polyglot.Proofs.Maps
import Polyglot.Proofs.ShownPaths

/-!
# Every file stands alone

Every message file of a directory is accounted for: it gives a catalog or is left out, and each of its
problems is listed with it. Files that are left out have no bearing on the catalogs and the reports,
and none on the issues of the other files. A file whose name is no text is left out whatever it holds,
so that it may be left out without a problem.

* `Found`, `LeftOutAt`, `problemsIn`: the files, those that are left out, and what is wrong with a file;
* `FileName.localeId?_eq_none_iff`: the files that are named after no locale;
* `Ordered`: the names with a property, in order;
* `load_spec`: what becomes of one file;
* `Accounted`, `run_accounted`: what becomes of a directory;
* `files_stand_alone`: both, and two directories that keep the same files;
* `left_out_silently`: a file that is left out without a problem.
-/

namespace Polyglot

/-! ### One file -/

/-- What is noted in reading a text, and then in building its catalog. Without a locale none is built. -/
def notedIn (id : Option String) (draft : Draft) : Problems :=
  draft.slips.map Slip.toProblem ++
    id.elim [] fun id => (Catalog.ofDocument id draft.document).2.map CatalogFault.toProblem

/-- What is wrong with a file: that it cannot be read, or what ended the reading, or else what was noted
in reading it and then in building its catalog. -/
def problemsIn (id : Option String) : Except DiskError String → Problems
  | .error e => [MessageFile.unreadable e]
  | .ok content =>
    match Document.read content with
    | .error e => [SyntaxError.toProblem e]
    | .ok draft => notedIn id draft

/-- The file has a problem that leaves it out: it cannot be read, its reading fails, or a problem that
was noted is fatal. -/
inductive Faulty (id : Option String) : Except DiskError String → Prop
  | unreadable (e : DiskError) : Faulty id (.error e)
  | unfinished {content : String} {e : At SyntaxError} (h : Document.read content = .error e) :
    Faulty id (.ok content)
  | fatal {content : String} {draft : Draft} (h : Document.read content = .ok draft) {q : Problem}
    (hq : q ∈ notedIn id draft) (hkind : q.kind ≠ .checks) : Faulty id (.ok content)

/-- The catalog of a file that can be read to its end and is named after a locale. -/
def catalogIn (id : Option String) : Except DiskError String → Option Catalog
  | .error _ => none
  | .ok content =>
    match Document.read content with
    | .error _ => none
    | .ok draft => id.map fun id => (Catalog.ofDocument id draft.document).1

/-- The line of a file that a problem is in. -/
def lineIn (text : Except DiskError String) (q : Problem) : Option String :=
  q.position.bind fun p => text.toOption.bind fun content => (textLines content)[p.line - 1]?

lemma hasFatal_eq_true_iff {ps : Problems} : ps.hasFatal = true ↔ ∃ q ∈ ps, q.kind ≠ .checks := by
  unfold Problems.hasFatal Problem.isFatal
  simp

lemma ofText_of_error {content : String} {e : At SyntaxError} (h : Document.read content = .error e)
    (path : Path) :
    MessageFile.ofText path content = ⟨path, some content, [SyntaxError.toProblem e], none⟩ := by
  rw [MessageFile.ofText, h]
  rfl

lemma ofText_of_ok {content : String} {draft : Draft} (h : Document.read content = .ok draft)
    (path : Path) :
    MessageFile.ofText path content =
      ⟨path, some content, notedIn path.localeId? draft,
        if (notedIn path.localeId? draft).hasFatal then none
        else path.localeId?.map fun id => (Catalog.ofDocument id draft.document).1⟩ := by
  rw [MessageFile.ofText, h]
  cases path.localeId? with
  | none => simp [notedIn, Draft.problems]
  | some id => rfl

/-- A problem leaves a file out exactly if it is a fatal one. -/
lemma faulty_iff_hasFatal {id : Option String} {text : Except DiskError String} :
    Faulty id text ↔ (problemsIn id text).hasFatal = true := by
  cases text with
  | error e => exact iff_of_true (.unreadable e) rfl
  | ok content =>
    cases hread : Document.read content with
    | error e =>
      simp only [problemsIn, hread]
      exact iff_of_true (.unfinished hread) rfl
    | ok draft =>
      simp only [problemsIn, hread, hasFatal_eq_true_iff]
      constructor
      · intro hfaulty
        cases hfaulty with
        | unfinished herr => cases hread.symm.trans herr
        | fatal hok hq hkind =>
          obtain rfl := Except.ok.inj (hread.symm.trans hok)
          exact ⟨_, hq, hkind⟩
      · rintro ⟨q, hq, hkind⟩
        exact .fatal hread hq hkind

/-- **What becomes of a file** depends on its path and its text only. -/
theorem load_spec (d : Disk) (path : Path) :
    (MessageFile.load d path).path = path ∧
    (MessageFile.load d path).content = (d.readText path).toOption ∧
    (MessageFile.load d path).problems = problemsIn path.localeId? (d.readText path) ∧
    ((MessageFile.load d path).catalog = none ↔
      path.localeId? = none ∨ Faulty path.localeId? (d.readText path)) ∧
    ((MessageFile.load d path).catalog ≠ none →
      (MessageFile.load d path).catalog = catalogIn path.localeId? (d.readText path)) := by
  rw [faulty_iff_hasFatal]
  unfold MessageFile.load
  cases d.readText path with
  | error e => exact ⟨rfl, rfl, rfl, iff_of_true rfl (.inr rfl), fun h => absurd rfl h⟩
  | ok content =>
    simp only [problemsIn, catalogIn]
    cases hread : Document.read content with
    | error e =>
      rw [ofText_of_error hread]
      exact ⟨rfl, rfl, rfl, iff_of_true rfl (.inr rfl), fun h => absurd rfl h⟩
    | ok draft =>
      rw [ofText_of_ok hread]
      refine ⟨rfl, rfl, rfl, ?_⟩
      by_cases hfatal : (notedIn path.localeId? draft).hasFatal = true
      · rw [if_pos hfatal]
        exact ⟨iff_of_true rfl (.inr hfatal), fun h => absurd rfl h⟩
      · rw [if_neg hfatal, or_iff_left hfatal, Option.map_eq_none_iff]
        exact ⟨Iff.rfl, fun _ => rfl⟩

/-! ### The locale of a file -/

/-- The locale that a file is named after. -/
def FileName.localeId? (name : FileName) : Option String :=
  name.toPath.localeId?

/-- The name of a file in a directory. -/
lemma Path.fileName?_join (dir : Path) (name : FileName) :
    (dir.join name.toPath).fileName? = some name.bytes := by
  obtain ⟨bs, hbytes, hbs⟩ := endsIn_join dir name
  obtain ⟨init, hpieces, -⟩ := pieces_of_endsIn name hbytes hbs
  rw [fileName?, hpieces, List.getLast?_concat]

lemma FileName.fileName?_toPath (name : FileName) : name.toPath.fileName? = some name.bytes := by
  have hjoin : (Path.mk []).join name.toPath = name.toPath := by
    unfold Path.join
    rw [if_pos (by simp)]
  rw [← hjoin]
  exact Path.fileName?_join ⟨[]⟩ name

lemma Path.join_toPath_inj {dir : Path} {a b : FileName} (h : dir.join a.toPath = dir.join b.toPath) :
    a = b := by
  have hnames := congrArg fileName? h
  rw [fileName?_join, fileName?_join] at hnames
  exact FileName.bytes_injective (Option.some.inj hnames)

/-- The directory tells nothing about the locale. -/
lemma localeId?_join (dir : Path) (name : FileName) :
    (dir.join name.toPath).localeId? = name.localeId? := by
  unfold FileName.localeId? Path.localeId? Path.stem?
  rw [Path.fileName?_join, FileName.fileName?_toPath]

/-- A name with an extension is made up of what it is cut into. -/
lemma Path.eq_of_cutExtension {name stem extension : RawText}
    (h : cutExtension name = (stem, some extension)) : name = stem ++ dot :: extension := by
  unfold cutExtension at h
  obtain ⟨after, hafter⟩ : ∃ after, after = (name.reverse.takeWhile (· != dot)).reverse := ⟨_, rfl⟩
  have hcut : name = (name.reverse.dropWhile (· != dot)).reverse ++ after := by
    rw [hafter, ← List.reverse_append, List.takeWhile_append_dropWhile, List.reverse_reverse]
  simp only [← hafter] at h
  split at h
  · cases h
  · rename_i hsome
    obtain ⟨rfl, hext⟩ := Prod.mk.inj h
    obtain rfl := Option.some.inj hext
    cases hrest : name.reverse.dropWhile (· != dot) with
    | nil =>
      have hlength : name.length = after.length := by
        rw [hrest] at hcut
        exact congrArg List.length hcut
      exact absurd (by simp [hlength]) hsome
    | cons b rest =>
      have hb : b = dot := by
        have hhead := List.head_dropWhile_not (· != dot) (l := name.reverse) (by rw [hrest]; simp)
        simpa [hrest] using hhead
      rw [hrest, hb, List.reverse_cons, List.append_assoc, List.singleton_append] at hcut
      have hlength : name.length - after.length - 1 = rest.reverse.length := by
        rw [hcut]
        simp
        omega
      rw [hlength]
      nth_rewrite 2 [hcut]
      rw [List.take_left]
      exact hcut

/-- **A message file is named after no locale exactly if its name is no text.** -/
theorem FileName.localeId?_eq_none_iff {name : FileName}
    (h : name.toPath.extension?.bind RawText.text? = some messageExtension) :
    name.localeId? = none ↔ name.bytes.text? = none := by
  unfold Path.extension? at h
  unfold localeId? Path.localeId? Path.stem?
  rw [fileName?_toPath, Option.bind_some] at h
  rw [fileName?_toPath, Option.map_some, Option.bind_some]
  obtain ⟨extension, hext, htext⟩ := Option.bind_eq_some_iff.1 h
  have hcut : Path.cutExtension name.bytes = ((Path.cutExtension name.bytes).1, some extension) :=
    Prod.ext rfl hext
  have hbytes : name.bytes = (Path.cutExtension name.bytes).1 ++ .ofText ("." ++ messageExtension) := by
    rw [RawText.ofText_append, ← RawText.text?_eq_some_iff.1 htext]
    exact Path.eq_of_cutExtension hcut
  nth_rewrite 2 [hbytes]
  exact (RawText.text?_append_ofText_eq_none_iff (by decide)).symm

/-! ### The files of a directory -/

/-- The directory has a message file of this name that is not left aside. -/
def Found (d : Disk) (dir : Path) (ignores : List Wildcard) (name : FileName) : Prop :=
  ∃ place contents, d.resolve dir = .ok place ∧ d.standing (place ++ [name]) = .file contents ∧
    name.toPath.extension?.bind RawText.text? = some messageExtension ∧
    ∀ w ∈ ignores, w.accepts name.shown = false

/-- The names with a property, each once and in order. -/
structure Ordered (names : List FileName) (P : FileName → Prop) : Prop where
  sorted : names.Pairwise (· < ·)
  mem_iff : ∀ name, name ∈ names ↔ P name

lemma Ordered.unique {ks ls : List FileName} {P : FileName → Prop} (hk : Ordered ks P)
    (hl : Ordered ls P) : ks = ls :=
  KeyMap.eq_of_ordered hk.sorted hl.sorted fun name => (hk.mem_iff name).trans (hl.mem_iff name).symm

lemma Ordered.filter {names : List FileName} {P : FileName → Prop} (h : Ordered names P)
    {q : FileName → Bool} {Q : FileName → Prop} (hq : ∀ name, P name ∧ q name = true ↔ Q name) :
    Ordered (names.filter q) Q where
  sorted := h.sorted.filter q
  mem_iff name := by rw [List.mem_filter, h.mem_iff, hq]

lemma Disk.isDirectory_iff {d : Disk} {p : Path} :
    d.isDirectory p = true ↔ ∃ place, d.resolve p = .ok place ∧ d.standing place = .directory := by
  rw [← look_eq_ok_iff]
  unfold isDirectory
  cases d.look p with
  | error e => simp
  | ok what => cases what <;> simp

lemma Disk.ordered_children (d : Disk) (place : Trail) :
    ((d.children place).map Prod.fst).Pairwise (· < ·) := by
  have hnodup := ((List.mergeSort_perm _ _).map _).nodup_iff.1 (d.nodup_children place)
  exact KeyMap.ordered_mergeSort hnodup

lemma isMessageFile_eq_true_iff {ignores : List Wildcard} {name : FileName} {what : Standing} :
    isMessageFile ignores name what = true ↔
      (∃ contents, what = .file contents) ∧
        name.toPath.extension?.bind RawText.text? = some messageExtension ∧
        ∀ w ∈ ignores, w.accepts name.shown = false := by
  cases what with
  | file contents => simp [isMessageFile]
  | nothing | directory => simp [isMessageFile]

lemma messageFiles_of_resolve {d : Disk} {dir : Path} {place : Trail}
    (hresolve : d.resolve dir = .ok place) (hdir : d.standing place = .directory)
    (ignores : List Wildcard) :
    messageFiles d dir ignores = .ok (((d.children place).filter fun e =>
      isMessageFile ignores e.1 e.2).map fun e => dir.join e.1.toPath) := by
  have hlook : d.look dir = .ok .directory := Disk.look_eq_ok_iff.2 ⟨place, hresolve, hdir⟩
  unfold messageFiles Disk.pathExists Disk.isDirectory Disk.listing
  simp only [hlook, hresolve, hdir]
  rfl

/-- The files that are found are those of the directory, by name. -/
theorem exists_found {d : Disk} {dir : Path} (h : d.isDirectory dir = true) (ignores : List Wildcard) :
    ∃ names, Ordered names (Found d dir ignores) ∧
      messageFiles d dir ignores = .ok (names.map fun name => dir.join name.toPath) := by
  obtain ⟨place, hresolve, hdir⟩ := Disk.isDirectory_iff.1 h
  refine ⟨((d.children place).filter fun e => isMessageFile ignores e.1 e.2).map Prod.fst,
    ⟨?_, fun name => ?_⟩, ?_⟩
  · exact (d.ordered_children place).sublist (List.filter_sublist.map _)
  · simp only [List.mem_map, List.mem_filter, isMessageFile_eq_true_iff]
    constructor
    · rintro ⟨⟨_, _⟩, ⟨hmem, ⟨contents, rfl⟩, hext, hign⟩, rfl⟩
      exact ⟨place, contents, hresolve, (Disk.mem_children_iff.1 hmem).2, hext, hign⟩
    · rintro ⟨place', contents, hresolve', hfile, hext, hign⟩
      obtain rfl := Except.ok.inj (hresolve.symm.trans hresolve')
      exact ⟨(name, .file contents), ⟨Disk.mem_children_iff.2 ⟨by simp, hfile⟩, ⟨contents, rfl⟩, hext,
        hign⟩, rfl⟩
  · rw [messageFiles_of_resolve hresolve hdir, List.map_map]
    rfl

/-! ### The loading of a directory -/

section

variable (d : Disk) (dir : Path)

/-- The text of a file in the directory. -/
def textAt (name : FileName) : Except DiskError String :=
  d.readText (dir.join name.toPath)

/-- The file in the directory has a problem that leaves it out. -/
def FaultyAt (name : FileName) : Prop :=
  Faulty name.localeId? (textAt d dir name)

/-- The file in the directory is left out: its name is no text, or it has such a problem. -/
def LeftOutAt (name : FileName) : Prop :=
  name.bytes.text? = none ∨ FaultyAt d dir name

/-- The catalog of a file in the directory. -/
def catalogAt (name : FileName) : Option SourcedCatalog :=
  (catalogIn name.localeId? (textAt d dir name)).map (⟨·, dir.join name.toPath⟩)

/-- The problems of a file in the directory. -/
def problemsAt (name : FileName) : List FileProblem :=
  (problemsIn name.localeId? (textAt d dir name)).map fun q =>
    ⟨dir.join name.toPath, q, lineIn (textAt d dir name) q⟩

/-- Every file of a directory is accounted for: it has a catalog or is left out, and its problems are
listed. All three are in the order of the names. -/
structure Accounted (ignores : List Wildcard) (l : Loading) : Prop where
  catalogs : ∃ names, Ordered names (fun name => Found d dir ignores name ∧ ¬ LeftOutAt d dir name) ∧
    l.catalogs.map some = names.map (catalogAt d dir)
  excluded : ∃ names, Ordered names (fun name => Found d dir ignores name ∧ LeftOutAt d dir name) ∧
    l.excluded = names.map fun name => dir.join name.toPath
  problems : ∃ names, Ordered names (Found d dir ignores) ∧
    l.problems = names.flatMap (problemsAt d dir)

end

lemma map_some_filterMap {α β : Type} (f : α → Option β) (as : List α) :
    (as.filterMap f).map some = (as.filter fun a => (f a).isSome).map f := by
  induction as with
  | nil => rfl
  | cons a as ih =>
    cases hf : f a with
    | none => simp [hf, ih]
    | some b => simp [hf, ih]

section

variable {d : Disk} {dir : Path} {ignores : List Wildcard}

lemma Found.localeId?_eq_none_iff {name : FileName} (h : Found d dir ignores name) :
    name.localeId? = none ↔ name.bytes.text? = none := by
  obtain ⟨-, -, -, -, hext, -⟩ := h
  exact FileName.localeId?_eq_none_iff hext

lemma catalog_load_eq_none_iff {name : FileName} (h : Found d dir ignores name) :
    (MessageFile.load d (dir.join name.toPath)).catalog = none ↔ LeftOutAt d dir name := by
  obtain ⟨-, -, -, hnone, -⟩ := load_spec d (dir.join name.toPath)
  rw [hnone, localeId?_join, h.localeId?_eq_none_iff]
  rfl

lemma map_catalog_load {name : FileName}
    (h : (MessageFile.load d (dir.join name.toPath)).catalog ≠ none) :
    ((MessageFile.load d (dir.join name.toPath)).catalog.map
      (⟨·, (MessageFile.load d (dir.join name.toPath)).path⟩) : Option SourcedCatalog) =
        catalogAt d dir name := by
  obtain ⟨hpath, -, -, -, hcatalog⟩ := load_spec d (dir.join name.toPath)
  rw [hpath, hcatalog h, localeId?_join]
  rfl

lemma fileProblems_load (name : FileName) :
    (MessageFile.load d (dir.join name.toPath)).fileProblems = problemsAt d dir name := by
  obtain ⟨hpath, hcontent, hproblems, -⟩ := load_spec d (dir.join name.toPath)
  unfold MessageFile.fileProblems MessageFile.lineOf
  rw [hpath, hcontent, hproblems, localeId?_join]
  rfl

/-- **Every file of a directory is accounted for.** -/
theorem run_accounted (h : d.isDirectory dir = true) (ignores : List Wildcard) :
    ∃ l, Loading.run d dir ignores = .ok l ∧ Accounted d dir ignores l := by
  obtain ⟨names, hnames, hfiles⟩ := exists_found h ignores
  refine ⟨_, map_eq_ok_iff.2 ⟨_, hfiles, rfl⟩, ?_, ?_, ?_⟩
  · refine ⟨_, hnames.filter (q := fun name =>
      (MessageFile.load d (dir.join name.toPath)).catalog.isSome) fun name => ?_, ?_⟩
    · refine and_congr_right fun hfound => ?_
      rw [Option.isSome_iff_ne_none, Ne, catalog_load_eq_none_iff hfound]
    · simp only [Loading.ofFiles, List.map_map, List.filterMap_map, map_some_filterMap,
        Function.comp_def, Option.isSome_map]
      refine List.map_congr_left fun name hname => map_catalog_load ?_
      exact Option.isSome_iff_ne_none.1 (List.mem_filter.1 hname).2
  · refine ⟨_, hnames.filter (q := fun name =>
      (MessageFile.load d (dir.join name.toPath)).catalog.isNone) fun name => ?_, ?_⟩
    · refine and_congr_right fun hfound => ?_
      rw [Option.isNone_iff_eq_none, catalog_load_eq_none_iff hfound]
    · simp only [Loading.ofFiles, List.map_map, List.filter_map, Function.comp_def, (load_spec d _).1]
  · refine ⟨names, hnames, ?_⟩
    simp only [Loading.ofFiles, List.map_map, List.flatMap_map, Function.comp_apply, fileProblems_load]

end

lemma isDirectory_of_run {d : Disk} {dir : Path} {ignores : List Wildcard} {l : Loading}
    (h : Loading.run d dir ignores = .ok l) : d.isDirectory dir = true := by
  obtain ⟨paths, hfiles, -⟩ := map_eq_ok_iff.1 h
  by_contra hnot
  unfold messageFiles at hfiles
  rw [Bool.not_eq_true] at hnot
  rw [hnot] at hfiles
  split at hfiles <;> cases hfiles

/-! ### Two directories that keep the same files -/

/-- The directory has a message file with this name and text that is not left out. -/
def Keeps (d : Disk) (dir : Path) (ignores : List Wildcard) (name : FileName) (content : String) :
    Prop :=
  Found d dir ignores name ∧ textAt d dir name = .ok content ∧ ¬ LeftOutAt d dir name

/-- A file that is not left out has a text. -/
lemma exists_keeps_iff {d : Disk} {dir : Path} {ignores : List Wildcard} {name : FileName} :
    (∃ content, Keeps d dir ignores name content) ↔
      Found d dir ignores name ∧ ¬ LeftOutAt d dir name := by
  constructor
  · rintro ⟨content, hfound, -, hkept⟩
    exact ⟨hfound, hkept⟩
  · rintro ⟨hfound, hkept⟩
    cases htext : textAt d dir name with
    | error e =>
      refine absurd (Or.inr ?_) hkept
      rw [FaultyAt, htext]
      exact .unreadable e
    | ok content => exact ⟨content, hfound, htext, hkept⟩

lemma catalogAt_congr {d₁ d₂ : Disk} {dir : Path} {name : FileName}
    (h : textAt d₁ dir name = textAt d₂ dir name) : catalogAt d₁ dir name = catalogAt d₂ dir name := by
  unfold catalogAt
  rw [h]

lemma problemsAt_congr {d₁ d₂ : Disk} {dir : Path} {name : FileName}
    (h : textAt d₁ dir name = textAt d₂ dir name) :
    problemsAt d₁ dir name = problemsAt d₂ dir name := by
  unfold problemsAt
  rw [h]

section

variable {d₁ d₂ : Disk} {dir : Path} {ignores : List Wildcard}
  (hsame : ∀ name content, Keeps d₁ dir ignores name content ↔ Keeps d₂ dir ignores name content)

include hsame

lemma kept_iff_of_same (name : FileName) :
    Found d₁ dir ignores name ∧ ¬ LeftOutAt d₁ dir name ↔
      Found d₂ dir ignores name ∧ ¬ LeftOutAt d₂ dir name := by
  rw [← exists_keeps_iff, ← exists_keeps_iff]
  exact exists_congr fun content => hsame name content

lemma textAt_of_same {name : FileName} (h : Found d₁ dir ignores name ∧ ¬ LeftOutAt d₁ dir name) :
    textAt d₁ dir name = textAt d₂ dir name := by
  obtain ⟨content, hkeeps⟩ := exists_keeps_iff.2 h
  rw [hkeeps.2.1, ((hsame name content).1 hkeeps).2.1]

/-- Directories that keep the same files give the same catalogs. -/
lemma Accounted.catalogs_eq {l₁ l₂ : Loading} (h₁ : Accounted d₁ dir ignores l₁)
    (h₂ : Accounted d₂ dir ignores l₂) : l₁.catalogs = l₂.catalogs := by
  obtain ⟨kept, hkept, hcatalogs₁⟩ := h₁.catalogs
  obtain ⟨names, hnames, hcatalogs₂⟩ := h₂.catalogs
  obtain rfl : kept = names := hkept.unique
    ⟨hnames.sorted, fun name => (hnames.mem_iff name).trans (kept_iff_of_same hsame name).symm⟩
  have hmap : l₁.catalogs.map some = l₂.catalogs.map some := by
    rw [hcatalogs₁, hcatalogs₂]
    exact List.map_congr_left fun name hname =>
      catalogAt_congr (textAt_of_same hsame ((hkept.mem_iff name).1 hname))
  exact (List.map_inj_right fun _ _ => Option.some.inj).1 hmap

end

namespace Project

/-- The issues of a file of the project. -/
def issuesAt (p : Project) (d : Disk) (name : FileName) : List Issue :=
  (problemsAt d p.catalogsDir name).map p.issueOf

/-- The issues of a run are those of the files that are found, by name, and then the given ones. The
files that are not left out are the kept ones. -/
structure Raises (p : Project) (d : Disk) (kept : List FileName) (rest : List Issue) (r : CheckRun) :
    Prop where
  kept : Ordered kept fun name =>
    Found d p.catalogsDir p.ignores name ∧ ¬ LeftOutAt d p.catalogsDir name
  issues : ∃ found, Ordered found (Found d p.catalogsDir p.ignores) ∧
    r.issues = found.flatMap (p.issuesAt d) ++ rest

/-- The issues that are not about a single file. -/
def commonIssues (p : Project) (catalogs : List SourcedCatalog) : List Issue :=
  (p.dropCollisions ∅ catalogs).2 ++
    (checkCatalogs ((p.dropCollisions ∅ catalogs).1.map (·.catalog))).issues

lemma issues_checkLoaded (p : Project) (l : Loading) :
    (p.checkLoaded l).issues = l.problems.map p.issueOf ++ p.commonIssues l.catalogs :=
  List.append_assoc ..

lemma raises_checkLoaded {p : Project} {d : Disk} {l : Loading}
    (h : Accounted d p.catalogsDir p.ignores l) {kept : List FileName}
    (hkept : Ordered kept fun name =>
      Found d p.catalogsDir p.ignores name ∧ ¬ LeftOutAt d p.catalogsDir name) :
    p.Raises d kept (p.commonIssues l.catalogs) (p.checkLoaded l) where
  kept := hkept
  issues := by
    obtain ⟨found, hfound, hproblems⟩ := h.problems
    refine ⟨found, hfound, ?_⟩
    rw [issues_checkLoaded, hproblems, List.map_flatMap]
    rfl

end Project

lemma Accounted.mem_excluded_iff {d : Disk} {dir : Path} {ignores : List Wildcard} {l : Loading}
    (hl : Accounted d dir ignores l) {name : FileName} (h : Found d dir ignores name) :
    dir.join name.toPath ∈ l.excluded ↔ LeftOutAt d dir name := by
  obtain ⟨names, hnames, hexcluded⟩ := hl.excluded
  rw [hexcluded, List.mem_map]
  constructor
  · rintro ⟨other, hmem, hjoin⟩
    obtain rfl := Path.join_toPath_inj hjoin
    exact ((hnames.mem_iff other).1 hmem).2
  · intro hleft
    exact ⟨name, (hnames.mem_iff name).2 ⟨h, hleft⟩, rfl⟩

/-- **Every file is accounted for, and a bad file never affects the others.** Loading a directory
succeeds. The message files in it are those that give a catalog and those that are left out, both in
the order of their names; a file is left out exactly if its name is no text, it cannot be read, its
reading fails, or a problem noted with it is fatal; and the problems are those of each file, in the same
order. So the files that are left out are those with a problem that leaves them out exactly if every
file whose name is no text has one. For another disk whose directory keeps the same files, the checks
give the same catalogs and the same reports, and their issues differ only in those of the files that
are left out. -/
theorem files_stand_alone (p : Project) (d₁ : Disk) (hd₁ : d₁.isDirectory p.catalogsDir = true) :
    (∃ l, Loading.run d₁ p.catalogsDir p.ignores = .ok l ∧ Accounted d₁ p.catalogsDir p.ignores l ∧
      ((∀ name, Found d₁ p.catalogsDir p.ignores name →
          (p.catalogsDir.join name.toPath ∈ l.excluded ↔ FaultyAt d₁ p.catalogsDir name)) ↔
        ∀ name, Found d₁ p.catalogsDir p.ignores name → name.bytes.text? = none →
          FaultyAt d₁ p.catalogsDir name)) ∧
    ∀ d₂ : Disk, d₂.isDirectory p.catalogsDir = true →
      (∀ name content, Keeps d₁ p.catalogsDir p.ignores name content ↔
        Keeps d₂ p.catalogsDir p.ignores name content) →
      ∃ r₁ r₂, p.check d₁ = .ok r₁ ∧ p.check d₂ = .ok r₂ ∧
        r₁.catalogs = r₂.catalogs ∧ r₁.reports = r₂.reports ∧
        ∃ kept rest, p.Raises d₁ kept rest r₁ ∧ p.Raises d₂ kept rest r₂ ∧
          ∀ name ∈ kept, p.issuesAt d₁ name = p.issuesAt d₂ name := by
  obtain ⟨l₁, hrun₁, hl₁⟩ := run_accounted hd₁ p.ignores
  refine ⟨⟨l₁, hrun₁, hl₁, forall₂_congr fun name hname => ?_⟩, fun d₂ hd₂ hsame => ?_⟩
  · rw [hl₁.mem_excluded_iff hname, LeftOutAt, or_iff_right_iff_imp]
  · obtain ⟨l₂, hrun₂, hl₂⟩ := run_accounted hd₂ p.ignores
    have hcatalogs : l₁.catalogs = l₂.catalogs := hl₁.catalogs_eq hsame hl₂
    obtain ⟨kept, hkept, -⟩ := hl₁.catalogs
    have hkept₂ : Ordered kept fun name =>
        Found d₂ p.catalogsDir p.ignores name ∧ ¬ LeftOutAt d₂ p.catalogsDir name :=
      ⟨hkept.sorted, fun name => (hkept.mem_iff name).trans (kept_iff_of_same hsame name)⟩
    refine ⟨p.checkLoaded l₁, p.checkLoaded l₂, map_eq_ok_iff.2 ⟨l₁, hrun₁, rfl⟩,
      map_eq_ok_iff.2 ⟨l₂, hrun₂, rfl⟩, ?_, ?_, kept, p.commonIssues l₁.catalogs,
      Project.raises_checkLoaded hl₁ hkept, ?_, fun name hname => ?_⟩
    · unfold Project.checkLoaded
      rw [hcatalogs]
    · unfold Project.checkLoaded
      rw [hcatalogs]
    · rw [hcatalogs]
      exact Project.raises_checkLoaded hl₂ hkept₂
    · unfold Project.issuesAt
      rw [problemsAt_congr (textAt_of_same hsame ((hkept.mem_iff name).1 hname))]

/-! ### Single directories -/

/-- The message files of a directory whose entries are listed by name. -/
lemma messageFiles_of_sorted {d : Disk} {dir : Path} {ignores : List Wildcard} {paths : List Path}
    (place : Trail) (hresolve : d.resolve dir = .ok place) (hdir : d.standing place = .directory)
    (hsorted : (d.entries.filterMap (Disk.childIn place)).Pairwise fun a b => a.1 ≤ b.1)
    (hpaths : (((d.entries.filterMap (Disk.childIn place)).filter fun e =>
      isMessageFile ignores e.1 e.2).map fun e => dir.join e.1.toPath) = paths) :
    messageFiles d dir ignores = .ok paths := by
  rw [messageFiles_of_resolve hresolve hdir, Disk.children,
    List.mergeSort_of_pairwise (hsorted.imp decide_eq_true), hpaths]

lemma run_of_messageFiles {d : Disk} {dir : Path} {ignores : List Wildcard} {paths : List Path}
    (h : messageFiles d dir ignores = .ok paths) :
    Loading.run d dir ignores = .ok (.ofFiles (paths.map (MessageFile.load d))) :=
  map_eq_ok_iff.2 ⟨_, h, rfl⟩

lemma Project.check_of_messageFiles {p : Project} {d : Disk} {paths : List Path}
    (h : messageFiles d p.catalogsDir p.ignores = .ok paths) :
    p.check d = .ok (p.checkLoaded (.ofFiles (paths.map (MessageFile.load d)))) :=
  map_eq_ok_iff.2 ⟨_, run_of_messageFiles h, rfl⟩

lemma isFileName_german : isFileName (.ofText "de.tm") = true := by decide

lemma isFileName_english : isFileName (.ofText "en.tm") = true := by decide

def german : FileName := ⟨_, isFileName_german⟩

def english : FileName := ⟨_, isFileName_english⟩

/-- A file that can be used, beside a file with these contents. -/
def besideDisk (contents : Contents) : Disk :=
  .ofList [(.ofText "en.tm", .file (.text "title = 'Home'\n")), (.ofText "de.tm", .file contents)]

lemma entries_besideDisk (contents : Contents) : (besideDisk contents).entries =
    [([german], .file contents), ([english], .file (.text "title = 'Home'\n"))] :=
  rfl

lemma eq_of_found_besideDisk {contents : Contents} {name : FileName}
    (h : Found (besideDisk contents) currentDirectory [] name) : name = german ∨ name = english := by
  obtain ⟨place, other, hresolve, hfile, -⟩ := h
  obtain rfl : [] = place := Except.ok.inj hresolve
  have hmem := Disk.mem_entries_iff.2 ⟨List.cons_ne_nil name [], by simp, hfile⟩
  rw [entries_besideDisk] at hmem
  simp only [List.mem_cons, List.not_mem_nil, or_false, Prod.mk.injEq, List.cons.injEq,
    and_true] at hmem
  exact hmem.imp And.left And.left

/-- If the other file is left out, only the one is kept. -/
lemma keeps_besideDisk {contents : Contents}
    (h : LeftOutAt (besideDisk contents) currentDirectory german) {name : FileName} {content : String} :
    Keeps (besideDisk contents) currentDirectory [] name content ↔
      name = english ∧ content = "title = 'Home'\n" := by
  have htext : textAt (besideDisk contents) currentDirectory english = .ok "title = 'Home'\n" := rfl
  have hfound : Found (besideDisk contents) currentDirectory [] english :=
    ⟨[], .text "title = 'Home'\n", rfl, rfl, by decide +kernel, by simp⟩
  constructor
  · rintro ⟨hname, hcontent, hkept⟩
    obtain rfl | rfl := eq_of_found_besideDisk hname
    · exact absurd h hkept
    · exact ⟨rfl, Except.ok.inj (hcontent.symm.trans htext)⟩
  · rintro ⟨rfl, rfl⟩
    refine ⟨hfound, htext, ?_⟩
    have hload : (MessageFile.ofText (.ofText "./en.tm") "title = 'Home'\n").catalog.isNone =
        false := by
      decide +kernel
    rw [← catalog_load_eq_none_iff hfound, ← Option.isNone_iff_eq_none]
    exact fun hnone => Bool.false_ne_true (hload.symm.trans hnone)

/-- A text that breaks off and bytes that are no text, beside the same file. -/
theorem files_stand_alone_beside :
    (∃ l, Loading.run (besideDisk (.text "title = 'Ho")) currentDirectory [] = .ok l ∧
      Accounted (besideDisk (.text "title = 'Ho")) currentDirectory [] l) ∧
    ∃ r₁ r₂, (Project.withoutSettings currentDirectory).check (besideDisk (.text "title = 'Ho")) =
        .ok r₁ ∧
      (Project.withoutSettings currentDirectory).check (besideDisk (.binary [0xFF])) = .ok r₂ ∧
      r₁.catalogs = r₂.catalogs ∧ r₁.reports = r₂.reports := by
  have hbroken : LeftOutAt (besideDisk (.text "title = 'Ho")) currentDirectory german := by
    refine Or.inr (faulty_iff_hasFatal.2 ?_)
    decide +kernel
  have hbytes : LeftOutAt (besideDisk (.binary [0xFF])) currentDirectory german :=
    Or.inr (.unreadable .notText)
  obtain ⟨⟨l, hrun, hl, -⟩, hsame⟩ := files_stand_alone (.withoutSettings currentDirectory)
    (besideDisk (.text "title = 'Ho")) rfl
  obtain ⟨r₁, r₂, hr₁, hr₂, hcatalogs, hreports, -⟩ := hsame (besideDisk (.binary [0xFF])) rfl
    fun name content => (keeps_besideDisk hbroken).trans (keeps_besideDisk hbytes).symm
  exact ⟨⟨l, hrun, hl⟩, r₁, r₂, hr₁, hr₂, hcatalogs, hreports⟩

lemma isFileName_stray : isFileName (0xFF :: RawText.ofText ".tm") = true := by decide

/-- A name that begins with a byte that is in no text. -/
def strayName : FileName := ⟨_, isFileName_stray⟩

/-- A file without any problem, under a name that is no text. -/
def strayDisk : Disk :=
  .ofList [(strayName.bytes, .file (.text "a = 'x'\n"))]

/-- **A file can be left out without a problem.** -/
theorem left_out_silently :
    Found strayDisk currentDirectory [] strayName ∧ ¬ FaultyAt strayDisk currentDirectory strayName ∧
    ∃ l, Loading.run strayDisk currentDirectory [] = .ok l ∧
      l.excluded = [currentDirectory.join strayName.toPath] ∧ l.problems = [] := by
  have hfiles : messageFiles strayDisk currentDirectory [] =
      .ok [currentDirectory.join strayName.toPath] :=
    messageFiles_of_sorted [] rfl rfl (by decide +kernel) (by decide +kernel)
  refine ⟨⟨[], .text "a = 'x'\n", rfl, rfl, by decide +kernel, by simp⟩, ?_, _,
    run_of_messageFiles hfiles, by decide +kernel, by decide +kernel⟩
  rw [FaultyAt, faulty_iff_hasFatal]
  decide +kernel

end Polyglot
