import Polyglot.Cli.Report
import Polyglot.Proofs.Collisions
import Polyglot.Proofs.CoverageIssues
import Polyglot.Proofs.Isolation
import Polyglot.Proofs.IssueOrder

/-!
# Issues that compare equal

The order of issues looks at the place and the message, and not at the rest of an issue. Among the
issues of one run the rest follows from these two, but for the line that is shown with an issue. The
message of a problem tells how bad it is, and what is said about a key or a locale across catalogs is
said once. Two files may be shown by the same path if one of their names is no text, and only then may
the lines differ.

* `Problem.Telling`, `telling_of_mem_problemsIn`: the problems of files;
* `Issue.withoutLine`: an issue but for the line that is shown with it;
* `Across`, `Across.unique`: what the checks report about all catalogs;
* `Project.Collected`, `Project.exists_collected`, `Project.Collected.tie`: the issues of a run;
* `Project.check_reproducible`: the main statement;
* `Project.check_depends_on_order`: two files that are shown alike.
-/

namespace Polyglot

/-! ### The problems of a file -/

/-- The message begins with these words. -/
def Begins (words message : String) : Prop :=
  words.toList <+: message.toList

instance (words message : String) : Decidable (Begins words message) :=
  inferInstanceAs (Decidable (words.toList <+: message.toList))

lemma begins_self (message : String) : Begins message message :=
  List.prefix_rfl

lemma Begins.append {words message : String} (h : Begins words message) (rest : String) :
    Begins words (message ++ rest) := by
  unfold Begins
  rw [String.toList_append]
  exact h.trans (List.prefix_append ..)

/-- The head of a message is all that matters if the words differ from it before it ends. -/
lemma begins_iff_of_head {words head message : String} (hhead : Begins head message)
    (h : Begins words head ∨ ¬ Begins head words) : Begins words message ↔ Begins words head := by
  constructor
  · intro hwords
    rcases List.prefix_or_prefix_of_prefix hwords hhead with hshort | hlong
    · exact hshort
    · exact h.resolve_right fun hnot => hnot hlong
  · exact fun hwords => List.IsPrefix.trans hwords hhead

namespace Problem

/-- The words that the messages of such problems begin with as leave the file usable. -/
def usableWords : List String :=
  ["Duplicate ", "Unknown message ", "Message "]

/-- The words that the message about an escape begins with. -/
def escapeWords : String := "Unknown escape "

/-- Whether a problem of a file leaves it out, told from its message. -/
def fatalTold (message : String) : Bool :=
  ¬ ∃ words ∈ usableWords, Begins words message

/-- Its further lines. -/
def detailsTold (message : String) : List String :=
  if Begins escapeWords message then [Slip.knownEscapes] else []

/-- The message tells the rest of the problem, but for its place. -/
structure Telling (q : Problem) : Prop where
  fatal : q.isFatal = fatalTold q.message
  details : q.details = detailsTold q.message

/-- It is enough to look at the beginning of the message. -/
lemma telling_of_head {q : Problem} (head : String) (hhead : Begins head q.message)
    (hclear : ∀ words ∈ escapeWords :: usableWords, Begins words head ∨ ¬ Begins head words)
    (hfatal : fatalTold head = q.isFatal) (hdetails : detailsTold head = q.details) : q.Telling := by
  obtain ⟨hescape, husable⟩ := List.forall_mem_cons.1 hclear
  have hwords : (∃ words ∈ usableWords, Begins words q.message) ↔
      ∃ words ∈ usableWords, Begins words head :=
    exists_congr fun words => and_congr_right fun hmem => begins_iff_of_head hhead (husable words hmem)
  constructor
  · simp only [← hfatal, fatalTold, hwords]
  · simp only [← hdetails, detailsTold, begins_iff_of_head hhead hescape]

end Problem

open Problem (telling_of_head fatalTold detailsTold)

lemma telling_slip (s : At Slip) : (Slip.toProblem s).Telling := by
  obtain ⟨slip, position⟩ := s
  cases slip with
  | unknownEscape c =>
    exact telling_of_head "Unknown escape sequence '\\" (((begins_self _).append _).append _)
      (by decide) (show fatalTold _ = true by decide)
      (show detailsTold _ = [Slip.knownEscapes] by decide)
  | unmatchedBrace =>
    exact telling_of_head _ (begins_self _) (show ∀ words ∈ _, Begins words
        Slip.unmatchedBrace.message ∨ ¬ Begins Slip.unmatchedBrace.message words by decide)
      (show fatalTold Slip.unmatchedBrace.message = true by decide)
      (show detailsTold Slip.unmatchedBrace.message = [] by decide)
  | reservedParameter name =>
    exact telling_of_head "Parameter name '" (((begins_self _).append _).append _) (by decide)
      (show fatalTold _ = true by decide) (show detailsTold _ = [] by decide)
  | directive fault =>
    cases fault with
    | unknown name =>
      exact telling_of_head "Unknown directive @" (((begins_self _).append _).append _) (by decide)
        (show fatalTold _ = true by decide) (show detailsTold _ = [] by decide)
    | arity name expected found =>
      exact telling_of_head "The @"
        ((((((begins_self _).append _).append _).append _).append _).append _ |>.append _) (by decide)
        (show fatalTold _ = true by decide) (show detailsTold _ = [] by decide)
    | duplicate directive =>
      exact telling_of_head "Duplicate " (((begins_self _).append _).append _) (by decide)
        (show fatalTold _ = false by decide) (show detailsTold _ = [] by decide)

lemma telling_catalogFault (fault : CatalogFault) : fault.toProblem.Telling := by
  cases fault with
  | duplicate key position =>
    exact telling_of_head "Duplicate message \"" (((begins_self _).append _).append _) (by decide)
      (show fatalTold _ = false by decide) (show detailsTold _ = [] by decide)
  | reference fault =>
    cases fault with
    | unknown name =>
      exact telling_of_head "Unknown message \"" (((begins_self _).append _).append _) (by decide)
        (show fatalTold _ = false by decide) (show detailsTold _ = [] by decide)
    | cyclic name =>
      exact telling_of_head "Message \"" (((begins_self _).append _).append _) (by decide)
        (show fatalTold _ = false by decide) (show detailsTold _ = [] by decide)

/-- What the messages about the end of reading begin with. -/
lemma exists_begins_syntaxError (e : SyntaxError) :
    ∃ head ∈ ["Unexpected character '", "Unterminated ", "Only one ", "Expected ", "Empty format "],
      Begins head e.message := by
  cases e with
  | unexpected c => exact ⟨_, by decide, ((begins_self "Unexpected character '").append _).append _⟩
  | afterHeader c => exact ⟨_, by decide, ((begins_self "Unexpected character '").append _).append _⟩
  | afterMessage c => exact ⟨_, by decide, ((begins_self "Unexpected character '").append _).append _⟩
  | inParameter c name =>
    exact ⟨_, by decide,
      ((((begins_self "Unexpected character '").append _).append _).append _).append _⟩
  | unterminatedHeader => exact ⟨"Unterminated ", by decide, by decide⟩
  | unterminatedText => exact ⟨"Unterminated ", by decide, by decide⟩
  | unterminatedFormat name =>
    have hhead : Begins "Unterminated " "Unterminated format for parameter '" := by decide
    exact ⟨_, by decide, (hhead.append _).append _⟩
  | secondHeader => exact ⟨"Only one ", by decide, by decide⟩
  | noDirectiveName => exact ⟨"Expected ", by decide, by decide⟩
  | noHiddenKey => exact ⟨"Expected ", by decide, by decide⟩
  | noEquals key =>
    have hhead : Begins "Expected " "Expected '=' after message key '" := by decide
    exact ⟨_, by decide, (hhead.append _).append _⟩
  | noText => exact ⟨"Expected ", by decide, by decide⟩
  | noReferenceName => exact ⟨"Expected ", by decide, by decide⟩
  | openReference name =>
    have hhead : Begins "Expected " "Expected '\x7d' after '\x7b@" := by decide
    exact ⟨_, by decide, (hhead.append _).append _⟩
  | noParameterName => exact ⟨"Expected ", by decide, by decide⟩
  | emptyFormat name =>
    have hhead : Begins "Empty format " "Empty format for parameter '" := by decide
    exact ⟨_, by decide, (hhead.append _).append _⟩

lemma telling_syntaxError (e : At SyntaxError) : (SyntaxError.toProblem e).Telling := by
  obtain ⟨head, hmem, hhead⟩ := exists_begins_syntaxError e.value
  have htold : ∀ head ∈ ["Unexpected character '", "Unterminated ", "Only one ", "Expected ",
      "Empty format "], (∀ words ∈ Problem.escapeWords :: Problem.usableWords,
        Begins words head ∨ ¬ Begins head words) ∧ fatalTold head = true ∧ detailsTold head = [] := by
    decide
  obtain ⟨hclear, hfatal, hdetails⟩ := htold head hmem
  exact telling_of_head head hhead hclear hfatal hdetails

/-- **The message of a problem tells the rest of it**, in whatever file. -/
theorem telling_of_mem_problemsIn {id : Option String} {text : Except DiskError String} {q : Problem}
    (h : q ∈ problemsIn id text) : q.Telling := by
  cases text with
  | error e =>
    rw [List.mem_singleton.1 h]
    exact telling_of_head "Failed to read file: " ((begins_self _).append _) (by decide)
      (show fatalTold _ = true by decide) (show detailsTold _ = [] by decide)
  | ok content =>
    unfold problemsIn at h
    cases hread : Document.read content with
    | error e =>
      simp only [hread, List.mem_singleton] at h
      rw [h]
      exact telling_syntaxError e
    | ok draft =>
      simp only [hread] at h
      rcases List.mem_append.1 h with hslip | hfault
      · obtain ⟨s, -, rfl⟩ := List.mem_map.1 hslip
        exact telling_slip s
      · cases id with
        | none => cases hfault
        | some id =>
          obtain ⟨fault, -, rfl⟩ := List.mem_map.1 hfault
          exact telling_catalogFault fault

/-- A problem that has no place in its file does not speak of a locale. -/
lemma not_begins_locale {id : Option String} {text : Except DiskError String} {q : Problem}
    (hq : q ∈ problemsIn id text) (hposition : q.position = none) : ¬ Begins "Locale " q.message := by
  have hnot : ∀ head, Begins head q.message → ¬ Begins "Locale " head → ¬ Begins head "Locale " →
      ¬ Begins "Locale " q.message := fun head hhead hshort hlong hlocale =>
    hshort ((begins_iff_of_head hhead (Or.inr hlong)).1 hlocale)
  cases text with
  | error e =>
    obtain rfl := List.mem_singleton.1 hq
    exact hnot "Failed to read file: " ((begins_self _).append _) (by decide) (by decide)
  | ok content =>
    unfold problemsIn at hq
    cases hread : Document.read content with
    | error e =>
      simp only [hread, List.mem_singleton] at hq
      rw [hq] at hposition
      cases hposition
    | ok draft =>
      simp only [hread] at hq
      rcases List.mem_append.1 hq with hslip | hfault
      · obtain ⟨s, -, rfl⟩ := List.mem_map.1 hslip
        cases hposition
      · cases id with
        | none => cases hfault
        | some id =>
          obtain ⟨fault, -, rfl⟩ := List.mem_map.1 hfault
          cases fault with
          | duplicate key position => cases hposition
          | reference fault =>
            cases fault with
            | unknown name =>
              exact hnot "Unknown message \"" (((begins_self _).append _).append _) (by decide)
                (by decide)
            | cyclic name =>
              exact hnot "Message \"" (((begins_self _).append _).append _) (by decide) (by decide)

lemma Issue.ofProblem_fields (path : String) (q : Problem) (line : Option String) :
    (Issue.ofProblem path q line).location.path? = some path ∧
    (Issue.ofProblem path q line).location.position? = q.position ∧
    (Issue.ofProblem path q line).message = q.message := by
  obtain ⟨kind, message, details, position⟩ := q
  unfold Issue.ofProblem
  cases position <;> split <;> exact ⟨rfl, rfl, rfl⟩

/-- Problems whose messages tell the rest are the same issue where they have the same place. -/
lemma Issue.ofProblem_congr {q r : Problem} (hq : q.Telling) (hr : r.Telling)
    (hposition : q.position = r.position) (hmessage : q.message = r.message) (path : String)
    (line : Option String) : Issue.ofProblem path q line = Issue.ofProblem path r line := by
  unfold Issue.ofProblem
  rw [hq.fatal, hr.fatal, hq.details, hr.details, hmessage, hposition]

namespace Issue

/-- The issue but for the line that is shown with it. -/
def withoutLine : Issue → Issue
  | parseError place error details => .parseError { place with line := none } error details
  | invalidMessage place error => .invalidMessage { place with line := none } error
  | i => i

lemma withoutLine_ofProblem (path : String) (q : Problem) (line : Option String) :
    (ofProblem path q line).withoutLine = ofProblem path q none := by
  unfold ofProblem
  split <;> rfl

lemma withoutLine_fields (i : Issue) :
    i.withoutLine.location.path? = i.location.path? ∧
    i.withoutLine.location.position? = i.location.position? ∧
    i.withoutLine.rule = i.rule ∧ i.withoutLine.message = i.message := by
  cases i with
  | parseError place =>
    obtain ⟨path, position, line⟩ := place
    cases position <;> exact ⟨rfl, rfl, rfl, rfl⟩
  | invalidMessage place =>
    obtain ⟨path, position, line⟩ := place
    cases position <;> exact ⟨rfl, rfl, rfl, rfl⟩
  | _ => exact ⟨rfl, rfl, rfl, rfl⟩

/-- The order does not look at the line. -/
lemma compare_withoutLine (i j : Issue) :
    Issue.compare i.withoutLine j.withoutLine = Issue.compare i j := by
  obtain ⟨hpath₁, hposition₁, hrule₁, hmessage₁⟩ := i.withoutLine_fields
  obtain ⟨hpath₂, hposition₂, hrule₂, hmessage₂⟩ := j.withoutLine_fields
  unfold Issue.compare
  rw [hpath₁, hpath₂, hposition₁, hposition₂, hrule₁, hrule₂, hmessage₁, hmessage₂]

end Issue

/-! ### What is reported about all catalogs -/

open Coverage (referenceOf definers lackers)

/-- What the checks report about all catalogs. -/
inductive Across (catalogs : List Catalog) : Issue → Prop
  | duplicate {first : Catalog} (h : referenceOf catalogs = some first) (id : String) :
    Across catalogs (.duplicateReference id first.id)
  | obsolete {reference : Catalog} (h : referenceOf catalogs = some reference) (key : String) :
    Across catalogs (.obsoleteKey key reference.id (definers catalogs key))
  | missing (key : String) : Across catalogs (.missingKey key (lackers catalogs key))
  | mismatch {key : String} {bucket : List Signature}
    (h : (Agreement.addAll {} catalogs).buckets.find? key = some bucket) :
    Across catalogs (.parameterMismatch key (bucket.map Signature.describe))

lemma across_of_mem {catalogs : List Catalog} (hids : (catalogs.map Catalog.id).Nodup) {i : Issue}
    (h : i ∈ (checkCatalogs catalogs).issues) : Across catalogs i := by
  have hcoverage : (catalogs.foldl Checking.add {}).coverage = Coverage.taking catalogs :=
    coverage_foldl_add catalogs {}
  have hclose : (Coverage.taking catalogs).close.2 =
      (Coverage.taking catalogs).dropObsolete.2 ++ (Coverage.taking catalogs).close.1.incomplete := rfl
  rw [issues_checkCatalogs, issues_foldl_add hids, hcoverage, hclose, Coverage.dropObsolete_snd hids,
    Coverage.incomplete_close hids] at h
  simp only [List.mem_append] at h
  rcases h with (hduplicate | hobsolete | hmissing) | hmismatch
  · unfold Coverage.duplicateIssues at hduplicate
    cases hmarked : catalogs.filter Catalog.isReference with
    | nil =>
      rw [hmarked] at hduplicate
      cases hduplicate
    | cons first others =>
      rw [hmarked] at hduplicate
      obtain ⟨t, -, rfl⟩ := List.mem_map.1 hduplicate
      refine .duplicate ?_ t.id
      rw [referenceOf, ← List.head?_filter, hmarked]
      rfl
  · unfold Coverage.obsoleteIssues at hobsolete
    cases hreference : referenceOf catalogs with
    | none =>
      rw [hreference] at hobsolete
      cases hobsolete
    | some reference =>
      rw [hreference] at hobsolete
      obtain ⟨key, -, rfl⟩ := List.mem_map.1 hobsolete
      exact .obsolete hreference key
  · obtain ⟨key, -, rfl⟩ := List.mem_map.1 hmissing
    exact .missing key
  · obtain ⟨⟨key, bucket⟩, hbucket, hsome⟩ := List.mem_filterMap.1 hmismatch
    split at hsome
    · cases hsome
      exact .mismatch ((KeyMap.mem_entries_iff _ key bucket).1 hbucket)
    · cases hsome

/-- A text between two others can be read off. -/
lemma append_inj_between {before after a b : String} (h : before ++ a ++ after = before ++ b ++ after) :
    a = b :=
  (String.append_right_inj before).1 ((String.append_left_inj after).1 h)

/-- **What is reported about all catalogs** follows from its rule and its message. -/
theorem Across.unique {catalogs : List Catalog} {i j : Issue} (hi : Across catalogs i)
    (hj : Across catalogs j) (hrule : i.rule = j.rule) (hmessage : i.message = j.message) : i = j := by
  cases hi with
  | duplicate h id =>
    cases hj with
    | duplicate h' id' =>
      obtain rfl := Option.some.inj (h.symm.trans h')
      obtain rfl : id = id' := append_inj_between hmessage
      rfl
    | obsolete | missing | mismatch => cases hrule
  | obsolete h key =>
    cases hj with
    | obsolete h' key' =>
      obtain rfl := Option.some.inj (h.symm.trans h')
      obtain rfl : key = key' := hmessage
      rfl
    | duplicate | missing | mismatch => cases hrule
  | missing key =>
    cases hj with
    | missing key' =>
      obtain rfl : key = key' := hmessage
      rfl
    | duplicate | obsolete | mismatch => cases hrule
  | @mismatch key bucket h =>
    cases hj with
    | @mismatch key' bucket' h' =>
      obtain rfl : key = key' := append_inj_between hmessage
      rw [Option.some.inj (h.symm.trans h')]
    | duplicate | obsolete | missing => cases hrule

lemma Across.path? {catalogs : List Catalog} {i : Issue} (h : Across catalogs i) :
    i.location.path? = none := by
  cases h <;> rfl

/-! ### The issues of a run -/

/-- Names that are text are shown differently. -/
lemma FileName.eq_of_shown {a b : FileName} (ha : a.bytes.text? ≠ none) (hb : b.bytes.text? ≠ none)
    (h : a.shown = b.shown) : a = b := by
  obtain ⟨s, hs⟩ := Option.ne_none_iff_exists'.1 ha
  obtain ⟨t, ht⟩ := Option.ne_none_iff_exists'.1 hb
  rw [RawText.text?_eq_some_iff] at hs ht
  rw [shown_of_bytes hs, shown_of_bytes ht] at h
  exact bytes_injective (by rw [hs, ht, h])

namespace Project

/-- How the issues of a run come about: a problem of a file, a catalog that is left out, or what is
reported about those that are kept. -/
inductive Collected (p : Project) (d : Disk) (catalogs : List Catalog) : Issue → Prop
  | problem {name : FileName} (hfound : Found d p.catalogsDir p.ignores name) {q : Problem}
    (h : q ∈ problemsIn name.localeId? (textAt d p.catalogsDir name)) :
    Collected p d catalogs
      (p.issueOf ⟨p.catalogsDir.join name.toPath, q, lineIn (textAt d p.catalogsDir name) q⟩)
  | collision {name : FileName} (hfound : Found d p.catalogsDir p.ignores name)
    (hkept : ¬ LeftOutAt d p.catalogsDir name) {c : SourcedCatalog}
    (h : catalogAt d p.catalogsDir name = some c) (kept : String) :
    Collected p d catalogs (.localeCollision (p.displayPath (p.catalogsDir.join name.toPath))
      c.catalog.id kept (toIdentifier c.catalog.id))
  | across {i : Issue} (h : Across catalogs i) : Collected p d catalogs i

lemma source_of_catalogAt {d : Disk} {dir : Path} {name : FileName} {c : SourcedCatalog}
    (h : catalogAt d dir name = some c) : c.source = dir.join name.toPath := by
  obtain ⟨catalog, -, rfl⟩ := Option.map_eq_some_iff.1 h
  rfl

/-- Every issue of a run comes about in one of these ways. -/
theorem exists_collected {p : Project} {d : Disk} {l : Loading}
    (hl : Accounted d p.catalogsDir p.ignores l) :
    ∃ catalogs, ∀ i ∈ (p.checkLoaded l).issues, Collected p d catalogs i := by
  obtain ⟨fs, hfs, hrun, hjustified⟩ := p.dropCollisions_fates seen_empty l.catalogs
  have hids : (((Fate.kept fs).map (·.catalog)).map Catalog.id).Nodup := by
    refine List.Nodup.of_map toIdentifier ?_
    rw [List.map_map, List.map_map]
    exact hjustified.nodup List.nodup_nil
  refine ⟨(Fate.kept fs).map (·.catalog), fun i hi => ?_⟩
  rw [issues_checkLoaded, commonIssues, hrun] at hi
  rcases List.mem_append.1 hi with hproblem | hcommon
  · obtain ⟨found, hfound, hproblems⟩ := hl.problems
    obtain ⟨f, hf, rfl⟩ := List.mem_map.1 hproblem
    rw [hproblems] at hf
    obtain ⟨name, hname, hat⟩ := List.mem_flatMap.1 hf
    obtain ⟨q, hq, rfl⟩ := List.mem_map.1 hat
    exact .problem ((hfound.mem_iff name).1 hname) hq
  · rcases List.mem_append.1 hcommon with hcollision | hacross
    · obtain ⟨f, hf, hissue⟩ := List.mem_filterMap.1 hcollision
      obtain ⟨k, -, rfl⟩ := Option.map_eq_some_iff.1 hissue
      obtain ⟨names, hordered, hcatalogs⟩ := hl.catalogs
      have hmem : some f.catalog ∈ l.catalogs.map some :=
        List.mem_map_of_mem (hfs ▸ List.mem_map_of_mem hf)
      rw [hcatalogs] at hmem
      obtain ⟨name, hname, hcatalog⟩ := List.mem_map.1 hmem
      obtain ⟨hfound, hkept⟩ := (hordered.mem_iff name).1 hname
      rw [source_of_catalogAt hcatalog]
      exact .collision hfound hkept hcatalog _
    · exact .across (across_of_mem hids hacross)

lemma issueOf_fields (p : Project) (f : FileProblem) :
    (p.issueOf f).location.path? = some (p.displayPath f.path) ∧
    (p.issueOf f).location.position? = f.problem.position ∧
    (p.issueOf f).message = f.problem.message :=
  Issue.ofProblem_fields (p.displayPath f.path) f.problem f.line

/-- A problem and a catalog that is left out are told apart. -/
lemma compare_problem_collision {p : Project} {d : Disk} {name : FileName} {q : Problem}
    (hq : q ∈ problemsIn name.localeId? (textAt d p.catalogsDir name))
    (line : Option String) (path locale kept identifier : String) :
    Issue.compare (p.issueOf ⟨p.catalogsDir.join name.toPath, q, line⟩)
      (.localeCollision path locale kept identifier) ≠ .eq := by
  obtain ⟨-, hposition, hmessage⟩ := p.issueOf_fields ⟨p.catalogsDir.join name.toPath, q, line⟩
  rw [Ne, Issue.compare_eq_eq_iff, hposition, hmessage]
  rintro ⟨-, hnone, hlocale, -⟩
  refine not_begins_locale hq hnone ?_
  rw [hlocale]
  have hhead : Begins "Locale " "Locale '" := by decide
  exact (((hhead.append _).append _).append _).append _

/-- The issues are about two files with different names that are shown alike. -/
def ShownAlike (p : Project) (d : Disk) (i j : Issue) : Prop :=
  ∃ a b : FileName, Found d p.catalogsDir p.ignores a ∧ Found d p.catalogsDir p.ignores b ∧
    a ≠ b ∧ a.shown = b.shown ∧ i ∈ p.issuesAt d a ∧ j ∈ p.issuesAt d b

/-- Problems of files that are alike in what the order looks at. -/
lemma tie_of_problems {p : Project} {d : Disk} {a b : FileName}
    (ha : Found d p.catalogsDir p.ignores a) (hb : Found d p.catalogsDir p.ignores b) {q r : Problem}
    (hq : q ∈ problemsIn a.localeId? (textAt d p.catalogsDir a))
    (hr : r ∈ problemsIn b.localeId? (textAt d p.catalogsDir b))
    (hpath : p.displayPath (p.catalogsDir.join a.toPath) = p.displayPath (p.catalogsDir.join b.toPath))
    (hposition : q.position = r.position) (hmessage : q.message = r.message) :
    let i := p.issueOf ⟨p.catalogsDir.join a.toPath, q, lineIn (textAt d p.catalogsDir a) q⟩
    let j := p.issueOf ⟨p.catalogsDir.join b.toPath, r, lineIn (textAt d p.catalogsDir b) r⟩
    i.withoutLine = j.withoutLine ∧ (i = j ∨ p.ShownAlike d i j) := by
  have hsame := Issue.ofProblem_congr (telling_of_mem_problemsIn hq) (telling_of_mem_problemsIn hr)
    hposition hmessage
  intro i j
  refine ⟨?_, ?_⟩
  · show (Issue.ofProblem ..).withoutLine = (Issue.ofProblem ..).withoutLine
    rw [Issue.withoutLine_ofProblem, Issue.withoutLine_ofProblem, hpath, hsame]
  · by_cases hab : a = b
    · subst hab
      left
      show Issue.ofProblem _ q (lineIn _ q) = Issue.ofProblem _ r (lineIn _ r)
      rw [hsame, lineIn, hposition]
      rfl
    · right
      exact ⟨a, b, ha, hb, hab, p.displayPath_join_inj p.catalogsDir hpath,
        List.mem_map_of_mem (List.mem_map_of_mem hq), List.mem_map_of_mem (List.mem_map_of_mem hr)⟩

/-- **Issues of a run that compare equal are equal**, but for the lines of files that are shown alike. -/
theorem Collected.tie {p : Project} {d : Disk} {catalogs : List Catalog} {i j : Issue}
    (hi : Collected p d catalogs i) (hj : Collected p d catalogs j) (h : Issue.compare i j = .eq) :
    i.withoutLine = j.withoutLine ∧ (i = j ∨ p.ShownAlike d i j) := by
  have hequal : ∀ {i j : Issue}, i = j →
      i.withoutLine = j.withoutLine ∧ (i = j ∨ p.ShownAlike d i j) := by
    rintro i _ rfl
    exact ⟨rfl, Or.inl rfl⟩
  have hswap : Issue.compare j i = .eq := by
    rw [Issue.compare_swap, h]
    rfl
  obtain ⟨hpath, hposition, hmessage, hrule⟩ := Issue.compare_eq_eq_iff.1 h
  cases hi with
  | @problem name hfound q hq =>
    obtain ⟨hpath₁, hposition₁, hmessage₁⟩ := p.issueOf_fields
      ⟨p.catalogsDir.join name.toPath, q, lineIn (textAt d p.catalogsDir name) q⟩
    cases hj with
    | @problem other hother r hr =>
      obtain ⟨hpath₂, hposition₂, hmessage₂⟩ := p.issueOf_fields
        ⟨p.catalogsDir.join other.toPath, r, lineIn (textAt d p.catalogsDir other) r⟩
      rw [hpath₁, hpath₂, Option.some.injEq] at hpath
      rw [hposition₁, hposition₂] at hposition
      rw [hmessage₁, hmessage₂] at hmessage
      exact tie_of_problems hfound hother hq hr hpath hposition hmessage
    | collision => exact absurd h (compare_problem_collision hq _ _ _ _ _)
    | across hacross =>
      rw [hpath₁, hacross.path?] at hpath
      cases hpath
  | @collision name hfound hkept c hc kept =>
    cases hj with
    | problem _ hr => exact absurd hswap (compare_problem_collision hr _ _ _ _ _)
    | @collision other _ hkept' c' hc' kept' =>
      -- The name of a file that has a catalog is text, and no other text is shown like it.
      obtain rfl := FileName.eq_of_shown (fun htext => hkept (Or.inl htext))
        (fun htext => hkept' (Or.inl htext))
        (p.displayPath_join_inj p.catalogsDir (Option.some.inj hpath))
      obtain rfl := Option.some.inj (hc.symm.trans hc')
      obtain rfl : kept = kept' := append_inj_between hmessage
      exact hequal rfl
    | across hacross =>
      rw [hacross.path?] at hpath
      cases hpath
  | across hacross =>
    rw [hacross.path?] at hpath
    cases hj with
    | problem hname hq =>
      rw [(p.issueOf_fields _).1] at hpath
      cases hpath
    | collision => cases hpath
    | across hacross' => exact hequal (hacross.unique hacross' (hrule hacross.path?) hmessage)

open Cli (CommandResult)

/-- **The order of issues is sound, and what is reported can be reproduced.** The order is a total
preorder. Sorting puts issues in this order, keeps all of them, and changes nothing if they are in it
already. A check of a project whose directory is there succeeds. Two of its issues that compare equal
are equal but for the line that is shown with them, and equal in all unless they are about two files with
different names that are shown alike. So the result of a command depends on which issues there are, and
not on the order in which they were collected, but for these lines; and if no two files are shown alike,
it does so in all. -/
theorem check_reproducible :
    (∀ a, Issue.compare a a = .eq) ∧
    (∀ a b, Issue.compare b a = (Issue.compare a b).swap) ∧
    (∀ a b c, (Issue.compare a b).isLE → (Issue.compare b c).isLE → (Issue.compare a c).isLE) ∧
    (∀ issues, Issue.Sorted (Issue.sort issues) ∧ (Issue.sort issues).Perm issues ∧
      (Issue.Sorted issues → Issue.sort issues = issues)) ∧
    ∀ (p : Project) (d : Disk), d.isDirectory p.catalogsDir = true →
      ∃ run, p.check d = .ok run ∧
        (∀ i ∈ run.issues, ∀ j ∈ run.issues, Issue.compare i j = .eq →
          i.withoutLine = j.withoutLine ∧ (i = j ∨ p.ShownAlike d i j)) ∧
        ∀ issues, issues.Perm run.issues → ∀ generation filesChecked,
          (CommandResult.finish generation issues filesChecked).issues.map Issue.withoutLine =
            (CommandResult.finish generation run.issues filesChecked).issues.map Issue.withoutLine ∧
          ((∀ a b, Found d p.catalogsDir p.ignores a → Found d p.catalogsDir p.ignores b →
              a.shown = b.shown → a = b) →
            CommandResult.finish generation issues filesChecked =
              CommandResult.finish generation run.issues filesChecked) := by
  refine ⟨fun a => Std.ReflCmp.compare_self, Issue.compare_swap,
    fun a b c => Std.TransCmp.isLE_trans, fun issues => ⟨Issue.sorted_sort issues,
      List.mergeSort_perm _ _, Issue.sort_eq_self⟩, fun p d hdir => ?_⟩
  obtain ⟨l, hrun, hl⟩ := run_accounted hdir p.ignores
  obtain ⟨catalogs, hcollected⟩ := exists_collected hl
  have hties : ∀ i ∈ (p.checkLoaded l).issues, ∀ j ∈ (p.checkLoaded l).issues,
      Issue.compare i j = .eq → i.withoutLine = j.withoutLine ∧ (i = j ∨ p.ShownAlike d i j) :=
    fun i hi j hj => (hcollected i hi).tie (hcollected j hj)
  refine ⟨p.checkLoaded l, map_eq_ok_iff.2 ⟨l, hrun, rfl⟩, hties, ?_⟩
  intro issues hperm generation filesChecked
  refine ⟨Issue.map_sort_eq_of_perm Issue.compare_withoutLine hperm
    fun i hi j hj h => (hties i hi j hj h).1, fun hnames => ?_⟩
  unfold CommandResult.finish
  rw [Issue.sort_eq_of_perm hperm]
  intro i hi j hj h
  refine (hties i hi j hj h).2.resolve_right ?_
  rintro ⟨a, b, ha, hb, hne, hshown, -⟩
  exact hne (hnames a b ha hb hshown)

/-- A file in which two messages refer to one that is not there, beside another. -/
def danglingDisk : Disk :=
  besideDisk (.text "a = '\x7b@x\x7d'\ntitle = '\x7b@x\x7d'\n")

lemma issues_danglingDisk {run : CheckRun}
    (h : (withoutSettings currentDirectory).check danglingDisk = .ok run) :
    run.issues = [.invalidMessage ⟨"de.tm", none, none⟩ "Unknown message \"x\"",
      .invalidMessage ⟨"de.tm", none, none⟩ "Unknown message \"x\"", .missingKey "a" ["en"]] := by
  have hfiles : messageFiles danglingDisk currentDirectory [] =
      .ok [.ofText "./de.tm", .ofText "./en.tm"] :=
    messageFiles_of_sorted [] rfl rfl (by decide +kernel) (by decide +kernel)
  obtain rfl := Except.ok.inj ((check_of_messageFiles hfiles).symm.trans h)
  decide +kernel

/-- Two issues of the run are equal, and compare so; in the other direction they give the same. -/
theorem check_reproducible_dangling :
    ∃ run, (withoutSettings currentDirectory).check danglingDisk = .ok run ∧
      run.issues = [.invalidMessage ⟨"de.tm", none, none⟩ "Unknown message \"x\"",
        .invalidMessage ⟨"de.tm", none, none⟩ "Unknown message \"x\"", .missingKey "a" ["en"]] ∧
      CommandResult.finish none run.issues.reverse 2 = CommandResult.finish none run.issues 2 := by
  obtain ⟨run, hrun, -, hfinish⟩ :=
    check_reproducible.2.2.2.2 (withoutSettings currentDirectory) danglingDisk rfl
  refine ⟨run, hrun, issues_danglingDisk hrun,
    (hfinish run.issues.reverse (List.reverse_perm _) none 2).2 ?_⟩
  have hshown : german.shown ≠ english.shown := by decide +kernel
  intro a b ha hb h
  obtain rfl | rfl := eq_of_found_besideDisk ha <;> obtain rfl | rfl := eq_of_found_besideDisk hb
  · rfl
  · exact absurd h hshown
  · exact absurd h.symm hshown
  · rfl

/-- Two texts that break off, under names that are shown alike. -/
def alikeDisk : Disk :=
  .ofList [(strayName.bytes, .file (.text "a = 'y\n")),
    (0xFE :: RawText.ofText ".tm", .file (.text "a = 'x\n"))]

/-- That a text breaks off in this line. -/
def alikeIssue (line : String) : Issue :=
  .parseError ⟨"\uFFFD.tm", some ⟨1, 5⟩, some line⟩ "Unterminated message text" []

lemma check_alikeDisk : ∃ run, (withoutSettings currentDirectory).check alikeDisk = .ok run ∧
    run.issues = [alikeIssue "a = 'x", alikeIssue "a = 'y"] := by
  have hfiles : messageFiles alikeDisk currentDirectory [] =
      .ok [⟨RawText.ofText "./" ++ 0xFE :: RawText.ofText ".tm"⟩,
        ⟨RawText.ofText "./" ++ 0xFF :: RawText.ofText ".tm"⟩] :=
    messageFiles_of_sorted [] rfl rfl (by decide +kernel) (by decide +kernel)
  exact ⟨_, check_of_messageFiles hfiles, by decide +kernel⟩

/-- **The order in which issues are collected can matter.** Two of them compare equal and differ, in the
line that is shown. -/
theorem check_depends_on_order :
    ∃ run i j, (withoutSettings currentDirectory).check alikeDisk = .ok run ∧ run.issues = [i, j] ∧
      Issue.compare i j = .eq ∧ i ≠ j ∧
      CommandResult.finish none [j, i] 2 ≠ CommandResult.finish none run.issues 2 := by
  obtain ⟨run, hcheck, hissues⟩ := check_alikeDisk
  have htie : ∀ line line', Issue.compare (alikeIssue line) (alikeIssue line') = .eq :=
    fun line line' => Issue.compare_eq_eq_iff.2 ⟨rfl, rfl, rfl, fun _ => rfl⟩
  have hsort : ∀ line line', Issue.sort [alikeIssue line, alikeIssue line'] =
      [alikeIssue line, alikeIssue line'] := by
    intro line line'
    refine Issue.sort_eq_self (List.pairwise_pair.2 ?_)
    rw [htie]
    rfl
  have hne : alikeIssue "a = 'x" ≠ alikeIssue "a = 'y" := by decide
  refine ⟨run, _, _, hcheck, hissues, htie _ _, hne, fun h => ?_⟩
  have hlists := congrArg CommandResult.issues h
  rw [hissues] at hlists
  unfold CommandResult.finish at hlists
  simp only [hsort] at hlists
  exact hne.symm (List.cons.inj hlists).1

end Project

end Polyglot
