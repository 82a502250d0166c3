import Polyglot.Proofs.Blocking
import Polyglot.Proofs.Isolation

/-!
# The number of files that are left out

A command tells how many files could not be read and were left out. It takes this number from its
issues, of which a file has one for each of its fatal problems. A file whose reading comes to an end
early has one such problem, but a file that is read to its end may have made any number of slips, and
if it is left out because of its name, none at all. So a file that has made two fatal slips makes the
number too large, and one that is left out in silence makes it too small.

* `fatalSlips`, `fatalProblems_cases`: how many fatal problems a file has;
* `silentFiles`, `exists_of_mem_silentFiles`: the files that are left out without one;
* `countP_problems_ofFiles`: the files that are left out and their problems;
* `countP_parseError_checkLoaded`: what a command counts;
* `parseErrorCount_of_run`: the main statement.
-/

namespace Polyglot

/-! ### The fatal problems of a file -/

/-- The slips because of which a file is left out. -/
def fatalSlips (draft : Draft) : List (At Slip) :=
  draft.slips.filter fun s => s.value.kind != .checks

/-- The problems because of which a file is left out. -/
def fatalProblems (d : Disk) (path : Path) : Problems :=
  (MessageFile.load d path).problems.filter Problem.isFatal

lemma isFatal_catalogFault (fault : CatalogFault) : fault.toProblem.isFatal = false := by
  cases fault <;> rfl

lemma filter_isFatal_notedIn (id : Option String) (draft : Draft) :
    (notedIn id draft).filter Problem.isFatal = (fatalSlips draft).map Slip.toProblem := by
  have hbuilding : (id.elim [] fun id =>
      (Catalog.ofDocument id draft.document).2.map CatalogFault.toProblem).filter
        Problem.isFatal = [] := by
    refine List.filter_eq_nil_iff.2 fun q hq => ?_
    cases id with
    | none => cases hq
    | some id =>
      obtain ⟨fault, -, rfl⟩ := List.mem_map.1 hq
      rw [isFatal_catalogFault]
      exact Bool.false_ne_true
  unfold notedIn fatalSlips
  rw [List.filter_append, hbuilding, List.append_nil, List.filter_map]
  rfl

section

variable (d : Disk) (path : Path)

/-- A file has one fatal problem if its reading does not come to its end, and else one for each of its
fatal slips. -/
theorem fatalProblems_cases :
    (∃ q, fatalProblems d path = [q]) ∧
        (∀ content draft, d.readText path = .ok content → Document.read content ≠ .ok draft) ∨
      ∃ content draft, d.readText path = .ok content ∧ Document.read content = .ok draft ∧
        fatalProblems d path = (fatalSlips draft).map Slip.toProblem := by
  unfold fatalProblems
  rw [(load_spec d path).2.2.1]
  cases htext : d.readText path with
  | error e => exact Or.inl ⟨⟨_, rfl⟩, fun content draft h => nomatch h⟩
  | ok content =>
    cases hread : Document.read content with
    | error e =>
      refine Or.inl ⟨⟨SyntaxError.toProblem e, ?_⟩, fun content' draft h hok => ?_⟩
      · simp only [problemsIn, hread]
        rfl
      · rw [← Except.ok.inj h, hread] at hok
        cases hok
    | ok draft =>
      refine Or.inr ⟨content, draft, rfl, hread, ?_⟩
      simp only [problemsIn, hread]
      exact filter_isFatal_notedIn _ draft

/-- A file is left out exactly if it is named after no locale or has a fatal problem. -/
lemma catalog_load_eq_none_iff_fatal :
    (MessageFile.load d path).catalog = none ↔ path.localeId? = none ∨ fatalProblems d path ≠ [] := by
  obtain ⟨-, -, hproblems, hnone, -⟩ := load_spec d path
  rw [hnone, faulty_iff_hasFatal, ← hproblems]
  refine or_congr_right ?_
  unfold fatalProblems Problems.hasFatal
  rw [List.any_eq_true, Ne, List.filter_eq_nil_iff]
  simp

end

/-! ### The files of a directory -/

lemma countP_fileProblems (d : Disk) (path : Path) :
    (MessageFile.load d path).fileProblems.countP (fun f => f.problem.isFatal) =
      (fatalProblems d path).length := by
  unfold MessageFile.fileProblems fatalProblems
  rw [List.countP_map, List.countP_eq_length_filter]
  rfl

/-- All fatal problems are those of the files that are left out. -/
theorem countP_problems_ofFiles (d : Disk) (paths : List Path) :
    (Loading.ofFiles (paths.map (MessageFile.load d))).problems.countP (fun f => f.problem.isFatal) =
      ((Loading.ofFiles (paths.map (MessageFile.load d))).excluded.flatMap (fatalProblems d)).length := by
  unfold Loading.ofFiles
  simp only
  induction paths with
  | nil => rfl
  | cons path paths ih =>
    have hpath : (MessageFile.load d path).path = path := (load_spec d path).1
    rw [List.map_cons, List.flatMap_cons, List.countP_append, ih, countP_fileProblems, List.filter_cons]
    cases hcatalog : (MessageFile.load d path).catalog with
    | none =>
      rw [if_pos Option.isNone_none, List.map_cons, List.flatMap_cons, List.length_append, hpath]
    | some catalog =>
      have hnone : fatalProblems d path = [] := by
        by_contra hne
        rw [(catalog_load_eq_none_iff_fatal d path).2 (Or.inr hne)] at hcatalog
        cases hcatalog
      rw [if_neg (by simp), hnone, List.length_nil, Nat.zero_add]

/-- The files that are left out without a fatal problem. -/
def silentFiles (d : Disk) (l : Loading) : List Path :=
  l.excluded.filter fun path => (fatalProblems d path).isEmpty

/-- Such a file has a name that is no text. -/
lemma exists_of_mem_silentFiles {d : Disk} {dir : Path} {ignores : List Wildcard} {l : Loading}
    (hl : Loading.run d dir ignores = .ok l) {path : Path} (h : path ∈ silentFiles d l) :
    ∃ name : FileName, path = dir.join name.toPath ∧ name.bytes.text? = none := by
  obtain ⟨hexcluded, hsilent⟩ := List.mem_filter.1 h
  obtain ⟨l', hl', haccounted⟩ := run_accounted (isDirectory_of_run hl) ignores
  obtain rfl := Except.ok.inj (hl.symm.trans hl')
  obtain ⟨names, hnames, hpaths⟩ := haccounted.excluded
  rw [hpaths] at hexcluded
  obtain ⟨name, hname, rfl⟩ := List.mem_map.1 hexcluded
  obtain ⟨hfound, hleft⟩ := (hnames.mem_iff name).1 hname
  rw [← catalog_load_eq_none_iff hfound, catalog_load_eq_none_iff_fatal, localeId?_join,
    hfound.localeId?_eq_none_iff] at hleft
  exact ⟨name, rfl, hleft.resolve_right (not_not.2 (List.isEmpty_iff.1 hsilent))⟩

/-- Lists have together at least one member for each that is not empty, and no more exactly if none of
them has a second. -/
lemma length_flatMap_filter_isEmpty {α β : Type} (f : α → List β) (xs : List α) :
    xs.length ≤ (xs.flatMap f).length + (xs.filter fun x => (f x).isEmpty).length ∧
      ((xs.flatMap f).length + (xs.filter fun x => (f x).isEmpty).length = xs.length ↔
        ∀ x ∈ xs, (f x).length ≤ 1) := by
  induction xs with
  | nil => simp
  | cons x xs ih =>
    obtain ⟨hle, hiff⟩ := ih
    rw [List.flatMap_cons, List.length_append, List.length_cons, List.forall_mem_cons, ← hiff,
      List.filter_cons]
    cases hx : f x with
    | nil =>
      rw [if_pos List.isEmpty_nil, List.length_cons, List.length_nil]
      omega
    | cons y ys =>
      rw [if_neg (by simp), List.length_cons]
      omega

/-! ### What a command counts -/

lemma rule_ne_parseError_of_mem_checkCatalogs {catalogs : List Catalog} {i : Issue}
    (h : i ∈ (checkCatalogs catalogs).issues) : i.rule ≠ .parseError := by
  have hwarning : i.severity = .warning → i.rule ≠ .parseError := by
    intro hseverity hrule
    rw [Issue.severity, hrule] at hseverity
    cases hseverity
  rw [issues_checkCatalogs] at h
  rcases List.mem_append.1 h with h | h
  · rcases List.mem_append.1 h with h | h
    · exact hwarning (Checking.severity_of_mem_issues catalogs h)
    · exact hwarning (Coverage.severity_of_mem_close h)
  · rw [Agreement.rule_of_mem_mismatches h]
    decide

lemma rule_issueOf_beq (p : Project) (f : FileProblem) :
    ((p.issueOf f).rule == .parseError) = f.problem.isFatal := by
  unfold Project.issueOf Issue.ofProblem
  cases f.problem.isFatal <;> rfl

/-- Of the issues of a check, those about files that cannot be read are the fatal problems. -/
theorem countP_parseError_checkLoaded (p : Project) (l : Loading) :
    (p.checkLoaded l).issues.countP (fun i => i.rule == .parseError) =
      l.problems.countP (fun f => f.problem.isFatal) := by
  have hissues : (p.checkLoaded l).issues = l.problems.map p.issueOf ++
      (p.dropCollisions ∅ l.catalogs).2 ++
      (checkCatalogs ((p.dropCollisions ∅ l.catalogs).1.map (·.catalog))).issues := rfl
  have hcollisions : (p.dropCollisions ∅ l.catalogs).2.countP (fun i => i.rule == .parseError) = 0 := by
    refine List.countP_eq_zero.2 fun i hi => ?_
    rw [p.rule_of_mem_collisions _ _ hi]
    decide
  have hchecks : (checkCatalogs ((p.dropCollisions ∅ l.catalogs).1.map (·.catalog))).issues.countP
      (fun i => i.rule == .parseError) = 0 := by
    refine List.countP_eq_zero.2 fun i hi => ?_
    simpa using rule_ne_parseError_of_mem_checkCatalogs hi
  rw [hissues, List.countP_append, List.countP_append, hcollisions, hchecks, List.countP_map]
  refine List.countP_congr fun f _ => ?_
  rw [Function.comp_apply, rule_issueOf_beq]

namespace Cli

lemma parseErrorCount_finish (generation : Option Generation) (issues : List Issue) (n : Nat) :
    (CommandResult.finish generation issues n).parseErrorCount =
      issues.countP (fun i => i.rule == .parseError) :=
  (CommandResult.perm_issues_finish generation issues n).countP_eq _

/-- A check and a release count alike. -/
lemma parseErrorCount_of_run_result {given : Overrides} {r : CommandResult} {s t : Session}
    (h : (checkResult given).run.run s = (.ok r, t) ∨ (releaseResult given).run.run s = (.ok r, t)) :
    ∃ p run, Project.load s.disk given = .ok p ∧ p.check s.disk = .ok run ∧
      r.parseErrorCount = run.issues.countP (fun i => i.rule == .parseError) := by
  rcases h with h | h
  · obtain ⟨p, run, hload, hcheck, rfl⟩ := of_run_checkResult h
    exact ⟨p, run, hload, hcheck, parseErrorCount_finish ..⟩
  · obtain ⟨p, run, generation, hload, hcheck, rfl, -⟩ := of_run_releaseResult h
    exact ⟨p, run, hload, hcheck, parseErrorCount_finish ..⟩

/-- **What a command tells about files that cannot be read.** The number is that of the fatal problems
of the files that are left out. Files that are left out in silence, which have names that are no text,
are not counted. With these it is never too small, and it is the number of files exactly if none of them has
been read to its end with more than one fatal slip. -/
theorem parseErrorCount_of_run {given : Overrides} {r : CommandResult} {s t : Session}
    (h : (checkResult given).run.run s = (.ok r, t) ∨ (releaseResult given).run.run s = (.ok r, t)) :
    ∃ p l, Project.load s.disk given = .ok p ∧
      Loading.run s.disk p.catalogsDir p.ignores = .ok l ∧
      r.parseErrorCount = (l.excluded.flatMap (fatalProblems s.disk)).length ∧
      (∀ path ∈ silentFiles s.disk l, ∃ name : FileName,
        path = p.catalogsDir.join name.toPath ∧ name.bytes.text? = none) ∧
      l.excluded.length ≤ r.parseErrorCount + (silentFiles s.disk l).length ∧
      (r.parseErrorCount + (silentFiles s.disk l).length = l.excluded.length ↔
        ∀ path ∈ l.excluded, ∀ content draft, s.disk.readText path = .ok content →
          Document.read content = .ok draft → (fatalSlips draft).length ≤ 1) := by
  obtain ⟨p, run, hload, hcheck, hcount⟩ := parseErrorCount_of_run_result h
  obtain ⟨l, hl, rfl⟩ := map_eq_ok_iff.1 hcheck
  obtain ⟨paths, -, rfl⟩ := map_eq_ok_iff.1 hl
  rw [countP_parseError_checkLoaded, countP_problems_ofFiles] at hcount
  obtain ⟨hle, hiff⟩ := length_flatMap_filter_isEmpty (fatalProblems s.disk)
    (Loading.ofFiles (paths.map (MessageFile.load s.disk))).excluded
  refine ⟨p, _, hload, hl, hcount, fun path => exists_of_mem_silentFiles hl, hcount ▸ hle, ?_⟩
  rw [hcount, silentFiles, hiff]
  refine forall₂_congr fun path _ => ?_
  rcases fatalProblems_cases s.disk path with ⟨⟨q, hq⟩, hunread⟩ | ⟨content, draft, htext, hread, hq⟩
  · rw [hq]
    exact iff_of_true (Nat.le_refl 1) fun content draft htext hread =>
      absurd hread (hunread content draft htext)
  · rw [hq, List.length_map]
    constructor
    · intro hle content' draft' htext' hread'
      obtain rfl := Except.ok.inj (htext.symm.trans htext')
      obtain rfl := Except.ok.inj (hread.symm.trans hread')
      exact hle
    · intro hall
      exact hall content draft htext hread

end Cli

/-! ### A file that is counted twice -/

/-- A file whose reading comes to an end early, and one that is read to its end with two slips. -/
def slippedDisk : Disk :=
  twoFiles "title = 'Start\n" "title = 'a\\q\\w'\n"

lemma load_slippedDisk : Project.load slippedDisk {} = .ok .plain :=
  Project.load_of_find?_eq_none (by decide +kernel) rfl rfl

lemma loading_slippedDisk : ∃ l, Loading.run slippedDisk (.ofText "./translations") [] = .ok l ∧
    l.excluded = [.ofText "./translations/de.tm", .ofText "./translations/en.tm"] ∧
    l.problems.countP (fun f => f.problem.isFatal) = 3 :=
  ⟨_, run_of_messageFiles (messageFiles_twoFiles _ _), by decide +kernel, by decide +kernel⟩

namespace Cli

open Running
open Generate (run_bind_eq_ok_iff)

/-- A project that can be checked gives a result. -/
lemma exists_run_checkResult {given : Overrides} {p : Project} {run : CheckRun} {s : Session}
    (hload : Project.load s.disk given = .ok p) (hcheck : p.check s.disk = .ok run) :
    ∃ t, (checkResult given).run.run s = (.ok (.finish none run.issues run.filesFound), t) := by
  obtain ⟨t, hstart, hdisk⟩ := Project.exists_run_start hload
  rw [← hdisk] at hcheck
  have hrun := Project.run_runCheck_eq_ok_iff.2 ⟨hcheck, rfl⟩
  exact ⟨_, run_bind_eq_ok_iff.2 ⟨p, t, hstart, run_bind_eq_ok_iff.2 ⟨run, _, hrun, rfl⟩⟩⟩

/-- Both files are left out, and their fatal problems are counted. -/
theorem parseErrorCount_of_run_slipped : ∃ r t,
    (checkResult {}).run.run { disk := slippedDisk } = (.ok r, t) ∧
      r.parseErrorCount = (([.ofText "./translations/de.tm", .ofText "./translations/en.tm"] :
        List Path).flatMap (fatalProblems slippedDisk)).length ∧ 2 ≤ r.parseErrorCount := by
  obtain ⟨l, hl, hexcluded, -⟩ := loading_slippedDisk
  have hcheck : Project.plain.check slippedDisk = .ok (Project.plain.checkLoaded l) :=
    map_eq_ok_iff.2 ⟨l, hl, rfl⟩
  obtain ⟨t, hrun⟩ := exists_run_checkResult (s := { disk := slippedDisk }) load_slippedDisk hcheck
  obtain ⟨p, l', hload, hl', hcount, -, hle, -⟩ := parseErrorCount_of_run (Or.inl hrun)
  obtain rfl := Except.ok.inj (load_slippedDisk.symm.trans hload)
  obtain rfl := Except.ok.inj (hl.symm.trans hl')
  have hsilent : silentFiles slippedDisk l = [] := by
    rw [silentFiles, hexcluded]
    decide +kernel
  rw [hsilent, hexcluded] at hle
  rw [hexcluded] at hcount
  exact ⟨_, t, hrun, hcount, hle⟩

/-- Two files are left out, and the user is told of three. -/
theorem parseErrorCount_ne_excluded : ∃ l r t,
    Loading.run slippedDisk (.ofText "./translations") [] = .ok l ∧
      (checkResult {}).run.run { disk := slippedDisk } = (.ok r, t) ∧
      l.excluded.length = 2 ∧ r.parseErrorCount = 3 ∧
      r.warnings false = ["warning: 3 file(s) could not be parsed and were left out"] := by
  obtain ⟨l, hl, hexcluded, hproblems⟩ := loading_slippedDisk
  have hcheck : Project.plain.check slippedDisk = .ok (Project.plain.checkLoaded l) :=
    map_eq_ok_iff.2 ⟨l, hl, rfl⟩
  obtain ⟨t, hrun⟩ := exists_run_checkResult (s := { disk := slippedDisk }) load_slippedDisk hcheck
  have hcount : (CommandResult.finish none (Project.plain.checkLoaded l).issues
      (Project.plain.checkLoaded l).filesFound).parseErrorCount = 3 := by
    rw [parseErrorCount_finish, countP_parseError_checkLoaded, hproblems]
  refine ⟨l, _, t, hl, hrun, by rw [hexcluded]; rfl, hcount, ?_⟩
  unfold CommandResult.warnings
  rw [hcount]
  decide +kernel

end Cli

end Polyglot
