import Polyglot.Cli.Command
import Polyglot.Proofs.Emitting
import Polyglot.Proofs.Gate
import Polyglot.Proofs.Isolation

/-!
# When nothing is generated

The checks of single catalogs, the gate at their end, the list of issues and the exit status of a
command are worked out in different places. They say the same: nothing is generated exactly if there
is a mismatch of parameters among the issues, and a command fails exactly if there is an error among
them.

* `Coverage.severity_of_mem_close`, `Checking.severity_of_mem_issues`: coverage only warns;
* `reports_eq_none_iff`, `Project.reports_checkLoaded_eq_none_iff`: the gate and the issues;
* `Project.run_release_of_blocked`: a release that is stopped leaves no trace;
* `CommandResult.exitStatus_eq_failure_iff`: issues and exit status;
* `gate_issues_status`: the main statement.
-/

namespace Polyglot

open Generate (TargetOptions)

/-! ### Warnings -/

lemma Coverage.severity_of_mem_add {c : Coverage} {catalog : Catalog} {i : Issue}
    (h : i ∈ (c.add catalog).2) : i.severity = .warning := by
  unfold Coverage.add Coverage.claimReference at h
  simp only at h
  split at h
  · split at h
    · cases h
    · rw [List.mem_singleton.1 h]
      rfl
  · cases h

lemma Coverage.severity_of_mem_close {c : Coverage} {i : Issue} (h : i ∈ c.close.2) :
    i.severity = .warning := by
  have hobsolete : ∀ i ∈ c.dropObsolete.2, i.severity = .warning := by
    intro i hi
    unfold Coverage.dropObsolete at hi
    split at hi
    · cases hi
    · obtain ⟨key, -, rfl⟩ := List.mem_map.1 hi
      rfl
  rcases List.mem_append.1 (show i ∈ c.dropObsolete.2 ++ c.dropObsolete.1.incomplete from h) with h | h
  · exact hobsolete i h
  · obtain ⟨key, -, hsome⟩ := List.mem_filterMap.1 h
    simp only at hsome
    split at hsome
    · cases hsome
    · cases hsome
      rfl

/-- Taking in a catalog only brings warnings. -/
lemma Checking.severity_of_mem_issues (catalogs : List Catalog) {i : Issue}
    (h : i ∈ (catalogs.foldl Checking.add {}).issues) : i.severity = .warning := by
  induction catalogs using List.reverseRecOn with
  | nil => cases h
  | append_singleton catalogs catalog ih =>
    rw [List.foldl_append] at h
    rcases List.mem_append.1 (show i ∈ (catalogs.foldl Checking.add {}).issues ++
      ((catalogs.foldl Checking.add {}).coverage.add catalog).2 from h) with h | h
    · exact ih h
    · exact Coverage.severity_of_mem_add h

/-! ### The gate -/

lemma Agreement.rule_of_mem_mismatches {a : Agreement} {i : Issue} (h : i ∈ a.mismatches) :
    i.rule = .parameterMismatch := by
  obtain ⟨e, -, hsome⟩ := List.mem_filterMap.1 h
  split at hsome
  · cases hsome
    rfl
  · cases hsome

/-- Among the issues of the checks, the mismatches are those that agreement reports at its end. -/
lemma mem_mismatches_iff {catalogs : List Catalog} {i : Issue} :
    i ∈ (Agreement.addAll {} catalogs).mismatches ↔
      i ∈ (checkCatalogs catalogs).issues ∧ i.rule = .parameterMismatch := by
  rw [issues_checkCatalogs]
  constructor
  · intro h
    exact ⟨List.mem_append_right _ h, Agreement.rule_of_mem_mismatches h⟩
  · rintro ⟨h, hrule⟩
    have hseverity : i.severity = .error := by rw [Issue.severity, hrule]; rfl
    rcases List.mem_append.1 h with h | h
    · rcases List.mem_append.1 h with h | h
      · cases hseverity.symm.trans (Checking.severity_of_mem_issues catalogs h)
      · cases hseverity.symm.trans (Coverage.severity_of_mem_close h)
    · exact h

/-- **The gate is closed exactly if there is a mismatch among the issues.** -/
theorem reports_eq_none_iff (catalogs : List Catalog) :
    (checkCatalogs catalogs).reports = none ↔
      ∃ i ∈ (checkCatalogs catalogs).issues, i.rule = .parameterMismatch := by
  have hsingle := (isSome_reports_iff catalogs).trans (Agreement.close_iff_single _).symm
  have hempty : (Agreement.addAll {} catalogs).close.1 = true ↔
      (Agreement.addAll {} catalogs).mismatches = [] := List.isEmpty_iff
  rw [hempty] at hsingle
  simp only [← mem_mismatches_iff]
  rw [← Option.not_isSome_iff_eq_none, hsingle, List.eq_nil_iff_forall_not_mem]
  simp

namespace Project

lemma rule_of_mem_collisions (p : Project) (seen : KeyMap String) (cs : List SourcedCatalog)
    {i : Issue} (h : i ∈ (p.dropCollisions seen cs).2) : i.rule = .localeCollision := by
  induction cs generalizing seen with
  | nil => cases h
  | cons c cs ih =>
    unfold dropCollisions at h
    simp only at h
    split at h
    · rcases List.mem_cons.1 h with rfl | h
      · rfl
      · exact ih _ h
    · exact ih _ h

lemma rule_issueOf (p : Project) (f : FileProblem) :
    (p.issueOf f).rule = .parseError ∨ (p.issueOf f).rule = .invalidMessage := by
  unfold issueOf Issue.ofProblem
  split
  · exact Or.inl rfl
  · exact Or.inr rfl

/-- What comes before the checks does not open or close the gate. -/
lemma reports_checkLoaded_eq_none_iff (p : Project) (l : Loading) :
    (p.checkLoaded l).reports = none ↔
      ∃ i ∈ (p.checkLoaded l).issues, i.rule = .parameterMismatch := by
  show (checkCatalogs ((p.dropCollisions ∅ l.catalogs).1.map (·.catalog))).reports = none ↔
    ∃ i ∈ l.problems.map p.issueOf ++ (p.dropCollisions ∅ l.catalogs).2 ++
      (checkCatalogs ((p.dropCollisions ∅ l.catalogs).1.map (·.catalog))).issues,
      i.rule = .parameterMismatch
  rw [reports_eq_none_iff]
  constructor
  · rintro ⟨i, hi, hrule⟩
    exact ⟨i, List.mem_append_right _ hi, hrule⟩
  · rintro ⟨i, hi, hrule⟩
    rcases List.mem_append.1 hi with hi | hi
    · rcases List.mem_append.1 hi with hi | hi
      · obtain ⟨f, -, rfl⟩ := List.mem_map.1 hi
        rcases p.rule_issueOf f with h | h
        · cases hrule.symm.trans h
        · cases hrule.symm.trans h
      · cases hrule.symm.trans (p.rule_of_mem_collisions _ _ hi)
    · exact ⟨i, hi, hrule⟩

end Project

/-! ### Runs -/

namespace Running

variable {α : Type} {s t : Session}

lemma run_ofExcept_eq_ok_iff {x : Except Failure α} {a : α} :
    (ofExcept x).run.run s = (.ok a, t) ↔ x = .ok a ∧ t = s := by
  cases x with
  | error f =>
    constructor
    · rintro ⟨⟩
    · rintro ⟨⟨⟩, -⟩
  | ok b =>
    show (Except.ok b, s) = (.ok a, t) ↔ _
    rw [Prod.mk.injEq]
    exact and_congr_right fun _ => eq_comm

lemma run_get_eq_ok_iff {a : Session} :
    (get : Running Session).run.run s = (.ok a, t) ↔ s = a ∧ s = t := by
  show (Except.ok s, s) = (.ok a, t) ↔ _
  rw [Prod.mk.injEq, Except.ok.injEq]

lemma run_note_eq_ok_iff {line : String} {u : Unit} :
    (note line).run.run s = (.ok u, t) ↔ t = { s with notes := s.notes ++ [line] } := by
  show (Except.ok (), _) = (.ok (), t) ↔ _
  rw [Prod.mk.injEq]
  exact (and_iff_right rfl).trans eq_comm

lemma run_pure_eq_ok_iff {a b : α} :
    (pure a : Running α).run.run s = (.ok b, t) ↔ b = a ∧ t = s := by
  show (Except.ok a, s) = (.ok b, t) ↔ _
  rw [Prod.mk.injEq, Except.ok.injEq]
  exact and_congr eq_comm eq_comm

end Running

namespace Project

open Running
open Generate (run_bind_eq_ok_iff)

/-- Finding the project changes nothing but the notes. -/
lemma load_of_run_start {given : Overrides} {p : Project} {s t : Session}
    (h : (start given).run.run s = (.ok p, t)) :
    load s.disk given = .ok p ∧ t.disk = s.disk := by
  obtain ⟨_, _, hget, h₁⟩ := run_bind_eq_ok_iff.1 h
  obtain ⟨rfl, rfl⟩ := run_get_eq_ok_iff.1 hget
  obtain ⟨q, _, hexcept, h₂⟩ := run_bind_eq_ok_iff.1 h₁
  obtain ⟨hload, rfl⟩ := run_ofExcept_eq_ok_iff.1 hexcept
  by_cases hfile : (!q.hasSettingsFile) = true
  · simp only [if_pos hfile, run_bind_eq_ok_iff, run_note_eq_ok_iff, run_pure_eq_ok_iff] at h₂
    obtain ⟨_, _, rfl, _, _, rfl, rfl, rfl⟩ := h₂
    exact ⟨hload, rfl⟩
  · simp only [if_neg hfile, run_bind_eq_ok_iff, run_note_eq_ok_iff, run_pure_eq_ok_iff] at h₂
    obtain ⟨_, _, rfl, rfl, rfl⟩ := h₂
    exact ⟨hload, rfl⟩

/-- A project that is there is found. -/
lemma exists_run_start {given : Overrides} {p : Project} {s : Session}
    (h : load s.disk given = .ok p) :
    ∃ t, (start given).run.run s = (.ok p, t) ∧ t.disk = s.disk := by
  obtain ⟨root, settings, hasSettingsFile, catalogsDir, ignores⟩ := p
  cases hasSettingsFile with
  | false =>
    exact ⟨_, run_bind_eq_ok_iff.2 ⟨_, _, run_get_eq_ok_iff.2 ⟨rfl, rfl⟩,
      run_bind_eq_ok_iff.2 ⟨_, _, run_ofExcept_eq_ok_iff.2 ⟨h, rfl⟩, rfl⟩⟩, rfl⟩
  | true =>
    exact ⟨_, run_bind_eq_ok_iff.2 ⟨_, _, run_get_eq_ok_iff.2 ⟨rfl, rfl⟩,
      run_bind_eq_ok_iff.2 ⟨_, _, run_ofExcept_eq_ok_iff.2 ⟨h, rfl⟩, rfl⟩⟩, rfl⟩

lemma run_runCheck_eq_ok_iff {p : Project} {run : CheckRun} {s t : Session} :
    p.runCheck.run.run s = (.ok run, t) ↔ p.check s.disk = .ok run ∧ t = { s with
      notes := s.notes ++
        [s!"Loaded {run.filesFound} translation file(s), {run.filesExcluded} excluded"] } := by
  simp only [runCheck, run_bind_eq_ok_iff, run_get_eq_ok_iff, run_ofExcept_eq_ok_iff,
    run_note_eq_ok_iff, run_pure_eq_ok_iff]
  constructor
  · rintro ⟨_, _, ⟨rfl, rfl⟩, _, _, ⟨hcheck, rfl⟩, _, _, rfl, rfl, rfl⟩
    exact ⟨hcheck, rfl⟩
  · rintro ⟨hcheck, rfl⟩
    exact ⟨s, s, ⟨rfl, rfl⟩, run, s, ⟨hcheck, rfl⟩, (), _, rfl, rfl, rfl⟩

/-- A release gives the run of its checks. -/
lemma check_of_run_release {p : Project} {options : TargetOptions} {r : ReleaseRun} {s t : Session}
    (h : (p.release options).run.run s = (.ok r, t)) : p.check s.disk = .ok r.check := by
  obtain ⟨targets, _, htargets, h₁⟩ := run_bind_eq_ok_iff.1 h
  obtain ⟨-, rfl⟩ := run_ofExcept_eq_ok_iff.1 htargets
  obtain ⟨run, between, hcheck, h₂⟩ := run_bind_eq_ok_iff.1 h₁
  cases hreports : run.reports with
  | none =>
    simp only [hreports, run_bind_eq_ok_iff, run_pure_eq_ok_iff] at h₂
    obtain ⟨_, _, -, rfl, -⟩ := h₂
    exact (run_runCheck_eq_ok_iff.1 hcheck).1
  | some reports =>
    simp only [hreports, run_bind_eq_ok_iff, run_pure_eq_ok_iff] at h₂
    obtain ⟨_, _, -, _, _, -, rfl, -⟩ := h₂
    exact (run_runCheck_eq_ok_iff.1 hcheck).1

/-- **A release that the checks stop leaves no trace**, and tells of no file. -/
theorem run_release_of_blocked {p : Project} {s : Session} {run : CheckRun}
    (hcheck : p.check s.disk = .ok run) (hblocked : run.reports = none) (options : TargetOptions) :
    ((p.release options).run.run s).1 = options.targets.map (fun targets => ⟨run, targets, []⟩) ∧
      ((p.release options).run.run s).2.disk = s.disk := by
  cases htargets : options.targets with
  | error f =>
    have hrun : (p.release options).run.run s = (.error f, s) := by
      unfold release
      rw [htargets]
      rfl
    rw [hrun]
    exact ⟨rfl, rfl⟩
  | ok targets =>
    obtain ⟨t, hrun, hdisk⟩ : ∃ t, p.runCheck.run.run s = (.ok run, t) ∧ t.disk = s.disk :=
      ⟨_, run_runCheck_eq_ok_iff.2 ⟨hcheck, rfl⟩, rfl⟩
    have hrelease : (p.release options).run.run s = (.ok ⟨run, targets, []⟩,
        { t with notes := t.notes ++ ["Checks failed, no file was generated"] }) := by
      refine run_bind_eq_ok_iff.2 ⟨targets, s, run_ofExcept_eq_ok_iff.2 ⟨htargets, rfl⟩,
        run_bind_eq_ok_iff.2 ⟨run, t, hrun, ?_⟩⟩
      simp only [hblocked]
      rfl
    rw [hrelease]
    exact ⟨rfl, hdisk⟩

end Project

/-! ### Results of commands -/

namespace Cli

open Running
open Generate (run_bind_eq_ok_iff)

namespace CommandResult

lemma perm_issues_finish (generation : Option Generation) (issues : List Issue)
    (filesChecked : Nat) : (finish generation issues filesChecked).issues.Perm issues :=
  List.mergeSort_perm _ _

lemma errorCount_pos_iff (r : CommandResult) :
    0 < r.errorCount ↔ ∃ i ∈ r.issues, i.severity = .error := by
  unfold errorCount
  rw [List.countP_pos_iff]
  simp

lemma warningCount_eq (r : CommandResult) :
    r.warningCount = r.issues.countP (fun i => i.severity == .warning) := by
  have hother : r.issues.countP (fun i => i.severity == .warning) =
      r.issues.countP (fun i => decide ¬(i.severity == .error) = true) := by
    refine List.countP_congr fun i _ => ?_
    cases i.severity <;> simp
  have hlength := List.length_eq_countP_add_countP (fun i : Issue => i.severity == .error)
    (l := r.issues)
  unfold warningCount errorCount
  rw [hother, hlength]
  omega

lemma errorCount_add_warningCount (r : CommandResult) :
    r.errorCount + r.warningCount = r.issues.length := by
  have hle : r.errorCount ≤ r.issues.length := List.countP_le_length
  unfold warningCount
  omega

/-- **A command fails exactly if there is an error among its issues**, provided that it has not been
stopped without one. -/
theorem exitStatus_eq_failure_iff {r : CommandResult}
    (h : r.isBlocked = true → ∃ i ∈ r.issues, i.severity = .error) :
    r.exitStatus = .failure ↔ ∃ i ∈ r.issues, i.severity = .error := by
  have hfailure : r.exitStatus = .failure ↔ 0 < r.errorCount ∨ r.isBlocked = true := by
    unfold exitStatus
    split <;> simp_all
  rw [hfailure, errorCount_pos_iff]
  exact or_iff_left_of_imp h

end CommandResult

/-- The issues of a check are those of its run. -/
lemma of_run_checkResult {given : Overrides} {r : CommandResult} {s t : Session}
    (h : (checkResult given).run.run s = (.ok r, t)) :
    ∃ p run, Project.load s.disk given = .ok p ∧ p.check s.disk = .ok run ∧
      r = .finish none run.issues run.filesFound := by
  obtain ⟨p, s₁, hstart, h₁⟩ := run_bind_eq_ok_iff.1 h
  obtain ⟨run, s₂, hcheck, h₂⟩ := run_bind_eq_ok_iff.1 h₁
  obtain ⟨rfl, -⟩ := run_pure_eq_ok_iff.1 h₂
  obtain ⟨hload, hdisk⟩ := Project.load_of_run_start hstart
  rw [Project.run_runCheck_eq_ok_iff, hdisk] at hcheck
  exact ⟨p, run, hload, hcheck.1, rfl⟩

/-- The issues of a release are those of its checks, and it is blocked if they have no reports. -/
lemma of_run_releaseResult {given : Overrides} {r : CommandResult} {s t : Session}
    (h : (releaseResult given).run.run s = (.ok r, t)) :
    ∃ p run generation, Project.load s.disk given = .ok p ∧ p.check s.disk = .ok run ∧
      r = .finish (some generation) run.issues run.filesFound ∧
      generation.allowed = run.reports.isSome := by
  obtain ⟨p, s₁, hstart, h₁⟩ := run_bind_eq_ok_iff.1 h
  obtain ⟨release, s₂, hrelease, h₂⟩ := run_bind_eq_ok_iff.1 h₁
  obtain ⟨rfl, -⟩ := run_pure_eq_ok_iff.1 h₂
  obtain ⟨hload, hdisk⟩ := Project.load_of_run_start hstart
  have hcheck := Project.check_of_run_release hrelease
  rw [hdisk] at hcheck
  exact ⟨p, release.check, _, hload, hcheck, rfl, rfl⟩

end Cli

namespace Project

lemma reports_eq_none_iff_of_check {p : Project} {d : Disk} {run : CheckRun}
    (h : p.check d = .ok run) :
    run.reports = none ↔ ∃ i ∈ run.issues, i.rule = .parameterMismatch := by
  obtain ⟨l, -, rfl⟩ := map_eq_ok_iff.1 h
  exact p.reports_checkLoaded_eq_none_iff l

end Project

open Cli in
/-- **The gate, the issues and the exit status agree.** A project that can be checked has no reports
exactly if there is a mismatch of parameters among its issues. A release then leaves the disk as it is
and tells of no file. A check or a release fails exactly if there is an error among its issues, which
are those of the checks, and each of them is counted as an error or a warning. -/
theorem gate_issues_status (s : Session) :
    (∀ (p : Project) run, p.check s.disk = .ok run →
      (run.reports = none ↔ ∃ i ∈ run.issues, i.rule = .parameterMismatch) ∧
      (run.reports = none → ∀ options : TargetOptions,
        ((p.release options).run.run s).1 =
          options.targets.map (fun targets => ⟨run, targets, []⟩) ∧
        ((p.release options).run.run s).2.disk = s.disk)) ∧
    ∀ given r t, (checkResult given).run.run s = (.ok r, t) ∨
        (releaseResult given).run.run s = (.ok r, t) →
      (r.exitStatus = .failure ↔ ∃ i ∈ r.issues, i.severity = .error) ∧
      r.errorCount + r.warningCount = r.issues.length ∧
      r.warningCount = r.issues.countP (fun i => i.severity == .warning) ∧
      ∃ p run, Project.load s.disk given = .ok p ∧ p.check s.disk = .ok run ∧
        r.issues.Perm run.issues := by
  refine ⟨fun p run hcheck => ?_, fun given r t h => ?_⟩
  · exact ⟨Project.reports_eq_none_iff_of_check hcheck,
      fun hblocked options => Project.run_release_of_blocked hcheck hblocked options⟩
  · have hcounts := And.intro r.errorCount_add_warningCount r.warningCount_eq
    rcases h with h | h
    · obtain ⟨p, run, hload, hcheck, rfl⟩ := of_run_checkResult h
      refine ⟨CommandResult.exitStatus_eq_failure_iff fun hblocked => ?_, hcounts.1, hcounts.2, p, run,
        hload, hcheck, CommandResult.perm_issues_finish ..⟩
      cases hblocked
    · obtain ⟨p, run, generation, hload, hcheck, rfl, hallowed⟩ := of_run_releaseResult h
      have hperm := CommandResult.perm_issues_finish (some generation) run.issues run.filesFound
      refine ⟨CommandResult.exitStatus_eq_failure_iff fun hblocked => ?_, hcounts.1, hcounts.2, p, run,
        hload, hcheck, hperm⟩
      -- What blocks a release is a mismatch, and that is an error.
      have hnone : run.reports = none := by
        have hnot : (!generation.allowed) = true := hblocked
        rw [hallowed] at hnot
        simpa using hnot
      obtain ⟨i, hi, hrule⟩ := (Project.reports_eq_none_iff_of_check hcheck).1 hnone
      refine ⟨i, hperm.mem_iff.2 hi, ?_⟩
      rw [Issue.severity, hrule]
      rfl

/-- A directory with two message files. -/
def twoFiles (first second : String) : Disk :=
  .ofList [(.ofText "translations", .directory),
    (.ofText "translations/en.tm", .file (.text second)),
    (.ofText "translations/de.tm", .file (.text first))]

lemma messageFiles_twoFiles (first second : String) :
    messageFiles (twoFiles first second) (.ofText "./translations") [] =
      .ok [.ofText "./translations/de.tm", .ofText "./translations/en.tm"] := by
  have hchildren : (twoFiles first second).entries.filterMap (Disk.childIn (.ofText "translations")) =
      [(german, .file (.text first)), (english, .file (.text second))] := rfl
  refine messageFiles_of_sorted (.ofText "translations") rfl rfl ?_ ?_
  · rw [hchildren]
    exact List.pairwise_pair.2 (by decide : german ≤ english)
  · rw [hchildren]
    rfl

/-- Two locales that give different parameters to a message. -/
def clashDisk : Disk :=
  twoFiles "title = '${a}'\n" "title = '${b}'\n"

lemma check_clashDisk : ∃ run, Project.plain.check clashDisk = .ok run ∧ run.reports = none := by
  have hnone : (Project.plain.checkLoaded (.ofFiles (([.ofText "./translations/de.tm",
      .ofText "./translations/en.tm"] : List Path).map (MessageFile.load clashDisk)))).reports.isNone =
        true := by
    decide +kernel
  refine ⟨_, Project.check_of_messageFiles (messageFiles_twoFiles _ _), ?_⟩
  exact Option.isNone_iff_eq_none.1 hnone

open Cli in
/-- A mismatch stops a release, which fails and leaves no directory behind. -/
theorem gate_issues_status_clash : ∃ run r t, Project.plain.check clashDisk = .ok run ∧
    (∃ i ∈ run.issues, i.rule = .parameterMismatch) ∧
    (releaseResult { modulesDir := some (.ofText "out") }).run.run { disk := clashDisk } = (.ok r, t) ∧
    t.disk = clashDisk ∧ r.exitStatus = .failure := by
  have hload : Project.load clashDisk { modulesDir := some (.ofText "out") } = .ok Project.plain :=
    Project.load_of_find?_eq_none (by decide +kernel) rfl rfl
  obtain ⟨run, hcheck, hblocked⟩ := check_clashDisk
  obtain ⟨s, hstart, hdisk⟩ : ∃ s, (Project.start { modulesDir := some (.ofText "out") }).run.run
      { disk := clashDisk } = (.ok Project.plain, s) ∧ s.disk = clashDisk :=
    Project.exists_run_start hload
  obtain ⟨hmismatch, hstopped⟩ := (gate_issues_status s).1 Project.plain run (hdisk ▸ hcheck)
  obtain ⟨hresult, hsame⟩ := hstopped hblocked
    (Project.plain.targetOptions { modulesDir := some (.ofText "out") })
  obtain ⟨i, hi, hrule⟩ := hmismatch.1 hblocked
  have hrelease : (releaseResult { modulesDir := some (.ofText "out") }).run.run { disk := clashDisk } =
      (.ok (.finish (some ⟨[.modules], [], run.reports.isSome⟩) run.issues run.filesFound),
        ((Project.plain.release (Project.plain.targetOptions
          { modulesDir := some (.ofText "out") })).run.run s).2) :=
    Generate.run_bind_eq_ok_iff.2 ⟨Project.plain, s, hstart, Generate.run_bind_eq_ok_iff.2
      ⟨⟨run, [.modules], []⟩, _, Prod.ext hresult rfl, rfl⟩⟩
  refine ⟨run, _, _, hcheck, ⟨i, hi, hrule⟩, hrelease, hsame.trans hdisk, ?_⟩
  have hstatus := ((gate_issues_status { disk := clashDisk }).2 _ _ _ (Or.inr hrelease)).1
  refine hstatus.2 ⟨i, (CommandResult.perm_issues_finish ..).mem_iff.2 hi, ?_⟩
  rw [Issue.severity, hrule]
  rfl

end Polyglot
