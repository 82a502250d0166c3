import Polyglot.Cli.Report
import Polyglot.Proofs.Completeness
import Polyglot.Proofs.Concatenation
import Polyglot.Proofs.Isolation

/-!
# The line shown with a problem

A problem is noted at a line and a column of the text without its byte-order mark, in which only
the line feed ends a line. The line that is shown with it is cut from the whole content, without a
carriage return at its end. The two agree, except that a byte-order mark is still there in front of
the first line.

* `UpToReturn`: equality, or a carriage return at the end of the second;
* `textLines_row`: the lines that are shown are those between line feeds;
* `Position.Within.row`: the line that a place is on;
* `line_shows_place`: what is shown to the left of a problem.
-/

namespace Polyglot

/-! ### Lines that are shown -/

/-- The texts are the same, or a carriage return is missing at the end of the first. -/
def UpToReturn (shown row : List Char) : Prop :=
  row = shown ∨ row = shown ++ ['\r']

lemma UpToReturn.take {shown row : List Char} (h : UpToReturn shown row) (n : Nat) :
    UpToReturn (shown.take n) (row.take n) := by
  obtain rfl | rfl := h
  · exact .inl rfl
  · rcases Nat.lt_or_ge shown.length n with hn | hn
    · right
      rw [List.take_of_length_le hn.le, List.take_of_length_le (by simp; omega)]
    · exact .inl (List.take_append_of_le_length hn)

/-- A text in front, without a carriage return, is in front of both. -/
lemma UpToReturn.of_append {first shown row : List Char} (hfirst : '\r' ∉ first)
    (h : UpToReturn shown (first ++ row)) :
    ∃ rest, shown = first ++ rest ∧ UpToReturn rest row := by
  obtain rfl | h := h
  · exact ⟨row, rfl, .inl rfl⟩
  · rcases List.eq_nil_or_concat' row with rfl | ⟨rest, c, rfl⟩
    · exact absurd (by rw [← List.append_nil first, h]; simp) hfirst
    · rw [← List.append_assoc] at h
      obtain ⟨rfl, hc⟩ := List.append_inj' h rfl
      exact ⟨rest, rfl, .inr (by rw [hc])⟩

lemma closeLine_upToReturn (seen : List Char) :
    UpToReturn (closeLine seen).toList seen.reverse := by
  unfold closeLine
  split
  · exact .inr (by simp)
  · exact .inl (by simp)

/-- What stands between two line feeds is a line, and what stands after the last one is a line unless
it is empty. -/
lemma linesFrom_row {seen cs : List Char} (hseen : '\n' ∉ seen) {i : Nat} {row : List Char}
    (hrow : ((seen.reverse ++ cs).splitOn '\n')[i]? = some row)
    (hlast : i + 1 = ((seen.reverse ++ cs).splitOn '\n').length → row ≠ []) :
    ∃ s, (linesFrom seen cs)[i]? = some s ∧ UpToReturn s.toList row := by
  fun_induction linesFrom seen cs generalizing i with
  | case1 seen hempty =>
    obtain rfl : seen = [] := by simpa using hempty
    obtain ⟨rfl, rfl⟩ : i = 0 ∧ row = [] := by
      cases i <;> simp_all [List.splitOn_nil]
    exact absurd rfl (hlast (by simp [List.splitOn_nil]))
  | case2 seen hne =>
    rw [List.append_nil, List.splitOn_eq_singleton (by simpa using hseen)] at hrow
    obtain ⟨rfl, rfl⟩ : i = 0 ∧ seen.reverse = row := by
      cases i <;> simp_all
    exact ⟨_, rfl, .inl (by simp)⟩
  | case3 seen cs ih =>
    rw [List.splitOn_append_cons_self_of_not_mem (by simpa using hseen)] at hrow hlast
    cases i with
    | zero =>
      obtain rfl : seen.reverse = row := by simpa using hrow
      exact ⟨_, rfl, closeLine_upToReturn seen⟩
    | succ i =>
      rw [List.getElem?_cons_succ] at hrow
      obtain ⟨s, hs, hsame⟩ := ih (by simp) hrow fun h => hlast (by simpa using h)
      exact ⟨s, by simpa using hs, hsame⟩
  | case4 seen c cs hc ih =>
    have hsame : (c :: seen).reverse ++ cs = seen.reverse ++ c :: cs := by simp
    refine ih ?_ (hsame ▸ hrow) (hsame ▸ hlast)
    rw [List.mem_cons, not_or]
    exact ⟨fun h => hc h.symm, hseen⟩

theorem textLines_row {text : String} {i : Nat} {row : List Char}
    (hrow : (text.toList.splitOn '\n')[i]? = some row)
    (hlast : i + 1 = (text.toList.splitOn '\n').length → row ≠ []) :
    ∃ s, (textLines text)[i]? = some s ∧ UpToReturn s.toList row :=
  linesFrom_row (by simp) hrow hlast

/-! ### The line of a place -/

lemma length_splitOn (cs : List Char) : (cs.splitOn '\n').length = cs.count '\n' + 1 := by
  induction cs with
  | nil => rfl
  | cons c cs ih =>
    rw [List.splitOn_cons_eq_if_modifyHead]
    by_cases h : c = '\n'
    · simp [h, ih]
    · simp [h, ih]

/-- A text is some whole lines and the beginning of another. -/
lemma exists_last_line (cs : List Char) :
    ∃ earlier here, cs = earlier ++ here ∧ '\n' ∉ here ∧
      (earlier = [] ∨ ∃ lines, earlier = lines ++ ['\n']) := by
  by_cases h : '\n' ∈ cs
  · obtain ⟨as, bs, heq, has⟩ := List.eq_append_cons_of_mem (List.mem_reverse.2 h)
    refine ⟨bs.reverse ++ ['\n'], as.reverse, ?_, by simpa using has, .inr ⟨_, rfl⟩⟩
    rw [← List.reverse_reverse cs, heq]
    simp
  · exact ⟨[], cs, rfl, h, .inl rfl⟩

/-- Whole lines take no part in the lines after them. -/
lemma splitOn_whole_lines {earlier : List Char}
    (h : earlier = [] ∨ ∃ lines, earlier = lines ++ ['\n']) (cs : List Char) :
    ∃ rows, rows.length = earlier.count '\n' ∧
      (earlier ++ cs).splitOn '\n' = rows ++ cs.splitOn '\n' := by
  obtain rfl | ⟨lines, rfl⟩ := h
  · exact ⟨[], rfl, rfl⟩
  · refine ⟨lines.splitOn '\n', ?_, ?_⟩
    · rw [length_splitOn, List.count_append]
      rfl
    · rw [List.append_assoc, List.singleton_append, List.splitOn_append_cons_self]

/-- The line that a text goes on with. -/
lemma exists_head_splitOn {here : List Char} (hhere : '\n' ∉ here) (after : List Char) :
    ∃ more rows, (here ++ after).splitOn '\n' = (here ++ more) :: rows ∧
      (rows = [] → more = after) := by
  by_cases h : '\n' ∈ after
  · obtain ⟨more, rest, rfl, hmore⟩ := List.eq_append_cons_of_mem h
    have hnot : '\n' ∉ here ++ more := by simp [hhere, hmore]
    refine ⟨more, rest.splitOn '\n', ?_, fun hrows => absurd hrows (List.splitOn_ne_nil _ _)⟩
    rw [← List.append_assoc, List.splitOn_append_cons_self_of_not_mem hnot]
  · have hnot : '\n' ∉ here ++ after := by simp [hhere, h]
    exact ⟨after, [], List.splitOn_eq_singleton hnot, fun _ => rfl⟩

lemma column_afterAll {cs : List Char} (h : '\n' ∉ cs) (p : Position) :
    (p.afterAll cs).column = p.column + cs.length := by
  induction cs generalizing p with
  | nil => rfl
  | cons c cs ih =>
    obtain ⟨hc, hcs⟩ := not_or.1 (mt List.mem_cons.2 h)
    rw [afterAll_cons, ih hcs, Position.after, if_neg (Ne.symm hc), List.length_cons]
    exact Nat.succ_add_eq_add_succ _ _

lemma column_whole_lines {earlier : List Char}
    (h : earlier = [] ∨ ∃ lines, earlier = lines ++ ['\n']) :
    (Position.start.afterAll earlier).column = 1 := by
  obtain rfl | ⟨lines, rfl⟩ := h
  · rfl
  · rw [afterAll_append]
    rfl

/-- A place is on a line of the text, not behind its end, and not on an empty last line. -/
theorem Position.Within.row {text : List Char} {p : Position} (h : p.Within text) :
    0 < p.line ∧ 0 < p.column ∧
      ∃ row, (text.splitOn '\n')[p.line - 1]? = some row ∧ p.column ≤ row.length + 1 ∧
        (p.line = (text.splitOn '\n').length → row ≠ []) := by
  obtain ⟨before, after, rfl, rfl, hend⟩ := h
  obtain ⟨earlier, here, rfl, hhere, hwhole⟩ := exists_last_line before
  obtain ⟨rows, hcount, hrows⟩ := splitOn_whole_lines hwhole (here ++ after)
  obtain ⟨more, below, hsplit, hmore⟩ := exists_head_splitOn hhere after
  have hline : (Position.start.afterAll (earlier ++ here)).line = rows.length + 1 := by
    rw [line_afterAll, List.count_append, List.count_eq_zero_of_not_mem hhere, ← hcount]
    exact Nat.add_comm _ _
  have hcolumn : (Position.start.afterAll (earlier ++ here)).column = here.length + 1 := by
    rw [afterAll_append, column_afterAll hhere, column_whole_lines hwhole]
    exact Nat.add_comm _ _
  refine ⟨by omega, by omega, here ++ more, ?_, ?_, ?_⟩
  · rw [hline, List.append_assoc, hrows, hsplit, Nat.add_sub_cancel]
    simp
  · rw [hcolumn, List.length_append]
    omega
  · intro hlast hempty
    obtain ⟨rfl, rfl⟩ := List.append_eq_nil_iff.1 hempty
    have hbelow : below = [] := by
      rw [hline, List.append_assoc, hrows, hsplit] at hlast
      simpa using hlast
    -- with nothing on the line and nothing below it the text ends here, after a line feed or at once
    obtain ⟨c, hc, hne⟩ := hend (hmore hbelow).symm
    obtain rfl | ⟨lines, rfl⟩ := hwhole
    · cases hc
    · exact hne (by simpa using hc.symm)

/-! ### The byte-order mark -/

/-- The byte-order mark in front of a text, as far as it is on the line of a place. -/
def markBefore (text : List Char) (p : Position) : List Char :=
  if p.line = 1 ∧ text.head? = some byteOrderMark then [byteOrderMark] else []

lemma length_splitOn_dropMark (text : List Char) :
    ((dropMark text).splitOn '\n').length = (text.splitOn '\n').length := by
  rw [length_splitOn, length_splitOn, count_dropMark]

/-- Only the first line has the mark. -/
lemma row_dropMark {text : List Char} {p : Position} (hp : 0 < p.line) {row : List Char}
    (h : ((dropMark text).splitOn '\n')[p.line - 1]? = some row) :
    (text.splitOn '\n')[p.line - 1]? = some (markBefore text p ++ row) := by
  unfold markBefore
  cases text with
  | nil => simpa [dropMark] using h
  | cons c cs =>
    rw [dropMark] at h
    by_cases hc : c = byteOrderMark
    · subst hc
      rw [if_pos rfl] at h
      have hne : ¬ (byteOrderMark == '\n') = true := by decide
      rw [List.splitOn_cons_eq_if_modifyHead, if_neg hne, List.getElem?_modifyHead, h]
      by_cases hline : p.line = 1
      · simp [hline]
      · have : p.line - 1 ≠ 0 := by omega
        simp [hline, this]
    · rw [if_neg hc] at h
      simpa [hc] using h

/-! ### Problems of a file -/

lemma mem_of_mem_repeated {ds : List Definition} {m : Definition} (h : m ∈ Catalog.repeated ds) :
    m ∈ ds := by
  obtain ⟨e, he, rfl⟩ := List.mem_map.1 h
  exact List.fst_mem_of_mem_zipIdx (List.mem_filter.1 he).1

/-- Building a catalog notes problems only where a message is defined. -/
lemma position_of_mem_ofDocument {id : String} {doc : Document} {fault : CatalogFault}
    (h : fault ∈ (Catalog.ofDocument id doc).2) {p : Position}
    (hp : fault.toProblem.position = some p) : ∃ m ∈ doc.definitions, m.position = p := by
  have hfaults : (Catalog.ofDocument id doc).2 = (Catalog.register {} doc.definitions).2 ++
      (Catalog.register {} doc.definitions).1.resolveAll.2.faults.map .reference := rfl
  rw [hfaults, Catalog.faults_register, List.mem_append, List.mem_map, List.mem_map] at h
  obtain ⟨m, hm, rfl⟩ | ⟨fault, -, rfl⟩ := h
  · exact ⟨m, mem_of_mem_repeated hm, Option.some.inj hp⟩
  · cases hp

/-- Every problem with a place is within the text after the mark. -/
theorem position_within {id : Option String} {content : String} {q : Problem}
    (hq : q ∈ problemsIn id (.ok content)) {p : Position} (hp : q.position = some p) :
    p.Within (dropMark content.toList) := by
  obtain ⟨hok, herr⟩ := read_within content
  rw [problemsIn] at hq
  cases hread : Document.read content with
  | error e =>
    rw [hread] at hq
    obtain rfl := List.mem_singleton.1 hq
    obtain rfl := Option.some.inj hp
    exact herr e hread
  | ok draft =>
    rw [hread] at hq
    rcases List.mem_append.1 hq with hslip | hfault
    · obtain ⟨slip, hmem, rfl⟩ := List.mem_map.1 hslip
      obtain rfl := Option.some.inj hp
      exact (hok draft hread).slips slip hmem
    · cases id with
      | none => cases hfault
      | some id =>
        obtain ⟨fault, hmem, rfl⟩ := List.mem_map.1 hfault
        obtain ⟨m, hm, rfl⟩ := position_of_mem_ofDocument hmem hp
        exact (hok draft hread).definitions m hm

/-- A problem that is noted in loading is one of the file with its path. -/
lemma mem_problems_run {d : Disk} {dir : Path} {ignores : List Wildcard} {l : Loading}
    (h : Loading.run d dir ignores = .ok l) {fp : FileProblem} (hfp : fp ∈ l.problems) :
    fp.problem ∈ problemsIn fp.path.localeId? (d.readText fp.path) ∧
      fp.line = lineIn (d.readText fp.path) fp.problem := by
  obtain ⟨paths, -, rfl⟩ := map_eq_ok_iff.1 h
  obtain ⟨f, hf, hmem⟩ := List.mem_flatMap.1 hfp
  obtain ⟨path, -, rfl⟩ := List.mem_map.1 hf
  obtain ⟨q, hq, rfl⟩ := List.mem_map.1 hmem
  obtain ⟨hpath, hcontent, hproblems, -⟩ := load_spec d path
  rw [hproblems] at hq
  rw [hpath, MessageFile.lineOf, hcontent]
  exact ⟨hq, rfl⟩

/-! ### What is shown to the left of a problem -/

/-- The line shows the place `p` of the text: it is the line of the text with that number, and what it
has to the left of the column is what the text has there. -/
def ShowsPlace (text : List Char) (p : Position) (line : List Char) : Prop :=
  0 < p.line ∧ 0 < p.column ∧
    ∃ row, (text.splitOn '\n')[p.line - 1]? = some row ∧ p.column ≤ row.length + 1 ∧
      UpToReturn line row ∧ UpToReturn (line.take (p.column - 1)) (row.take (p.column - 1))

/-- The caret below a line, with this many columns of the line to the left of it. -/
def caretLine (colors : Bool) (margin : Nat) (severity : Severity) (columns : Nat) : String :=
  Cli.padLeft margin "" ++ " " ++ Cli.Style.blue.paint colors "|" ++ " " ++ Cli.padLeft columns "" ++
    (Cli.caretStyle severity).paint colors "^"

lemma getLast?_sourceLines (colors : Bool) (measure : String → Nat) (margin : Nat)
    (severity : Severity) (p : Position) (line : String) :
    (Cli.sourceLines colors measure margin severity p line).getLast? =
      some (caretLine colors margin severity
        (measure (String.ofList (line.toList.take (p.column - 1))))) :=
  rfl

/-- The line with the number of a place is there, with the mark in front of what shows the place. -/
lemma exists_line {content : String} {p : Position} (h : p.Within (dropMark content.toList)) :
    ∃ s shown, (textLines content)[p.line - 1]? = some s ∧
      s.toList = markBefore content.toList p ++ shown ∧
      ShowsPlace (dropMark content.toList) p shown := by
  obtain ⟨hline, hcolumn, row, hrow, hle, hlast⟩ := h.row
  have hraw := row_dropMark hline hrow
  obtain ⟨s, hs, hsame⟩ := textLines_row hraw (by
    intro hlen hempty
    rw [← length_splitOn_dropMark, Nat.sub_add_cancel hline] at hlen
    exact hlast hlen (List.append_eq_nil_iff.1 hempty).2)
  have hmark : '\r' ∉ markBefore content.toList p := by
    unfold markBefore
    split <;> decide
  obtain ⟨shown, hshown, hrest⟩ := hsame.of_append hmark
  exact ⟨s, shown, hs, hshown, hline, hcolumn, row, hrow, hle, hrest, hrest.take _⟩

/-- **The line with a problem shows its place, after a byte-order mark.** Every problem with a place
that is noted in loading comes with a line of its file. That line is the line of the text that has
been read, up to a carriage return at its end, and what is to the left of the column is the same in
both; only a byte-order mark at the beginning of the file is still there in front of the first line.
Where there is none, the caret is below the character that the problem is about, in whatever way the
width of a text is measured. -/
theorem line_shows_place {d : Disk} {dir : Path} {ignores : List Wildcard} {l : Loading}
    (h : Loading.run d dir ignores = .ok l) {fp : FileProblem} (hfp : fp ∈ l.problems)
    {p : Position} (hp : fp.problem.position = some p) :
    ∃ content s shown, d.readText fp.path = .ok content ∧ fp.line = some s ∧
      s ∈ textLines content ∧ s.toList = markBefore content.toList p ++ shown ∧
      ShowsPlace (dropMark content.toList) p shown ∧
      (markBefore content.toList p = [] → ∀ colors measure margin severity,
        (Cli.sourceLines colors measure margin severity p s).getLast? =
          some (caretLine colors margin severity
            (measure (String.ofList (shown.take (p.column - 1)))))) := by
  obtain ⟨hmem, hline⟩ := mem_problems_run h hfp
  cases hread : d.readText fp.path with
  | error e =>
    -- a file that cannot be read has one problem, and that is at no place
    rw [hread, problemsIn, List.mem_singleton] at hmem
    rw [hmem] at hp
    cases hp
  | ok content =>
    rw [hread] at hmem hline
    obtain ⟨s, shown, hs, hshown, hplace⟩ := exists_line (position_within hmem hp)
    have hshows : fp.line = some s := by
      rw [hline, lineIn, hp, ← hs]
      rfl
    refine ⟨content, s, shown, rfl, hshows, List.mem_of_getElem? hs, hshown, hplace, ?_⟩
    intro hmark colors measure margin severity
    rw [getLast?_sourceLines, hshown, hmark, List.nil_append]

/-- A file with a byte-order mark and carriage returns, and an unknown escape on its lines. -/
def markedDisk : Disk :=
  .ofList [(.ofText "translations", .directory), (.ofText "translations/en.tm",
    .file (.text "\uFEFFtitle = 'a\\q'\r\nbody = 'b\\q'\r\n"))]

def firstSlip : FileProblem where
  path := .ofText "translations/en.tm"
  problem := Slip.toProblem ⟨.unknownEscape 'q', ⟨1, 11⟩⟩
  line := some "\uFEFFtitle = 'a\\q'"

def secondSlip : FileProblem where
  path := .ofText "translations/en.tm"
  problem := Slip.toProblem ⟨.unknownEscape 'q', ⟨2, 10⟩⟩
  line := some "body = 'b\\q'"

lemma run_markedDisk : ∃ l, Loading.run markedDisk (.ofText "translations") [] = .ok l ∧
    l.problems = [firstSlip, secondSlip] := by
  have hfiles : messageFiles markedDisk (.ofText "translations") [] =
      .ok [.ofText "translations/en.tm"] :=
    messageFiles_of_sorted (.ofText "translations") (by decide +kernel) (by decide +kernel)
      (by decide +kernel) (by decide +kernel)
  refine ⟨_, run_of_messageFiles hfiles, ?_⟩
  decide +kernel

/-- On the second line the mark does not matter. -/
theorem line_shows_place_below : ∃ l content s shown,
    Loading.run markedDisk (.ofText "translations") [] = .ok l ∧ secondSlip ∈ l.problems ∧
      markedDisk.readText (.ofText "translations/en.tm") = .ok content ∧ secondSlip.line = some s ∧
      s.toList = shown ∧ ShowsPlace (dropMark content.toList) ⟨2, 10⟩ shown := by
  obtain ⟨l, hl, hproblems⟩ := run_markedDisk
  have hmem : secondSlip ∈ l.problems := by
    rw [hproblems]
    exact List.mem_cons_of_mem _ List.mem_cons_self
  obtain ⟨content, s, shown, hcontent, hs, -, hshown, hplace, -⟩ :=
    line_shows_place hl hmem (p := ⟨2, 10⟩) rfl
  exact ⟨l, content, s, shown, hl, hmem, hcontent, hs, hshown, hplace⟩

/-- On the first line what stands to the left of the column is not what the text has there, and the
caret is one column too far to the left. -/
theorem not_showsPlace_marked : ∃ l content s,
    Loading.run markedDisk (.ofText "translations") [] = .ok l ∧ firstSlip ∈ l.problems ∧
      firstSlip.problem.position = some ⟨1, 11⟩ ∧ firstSlip.line = some s ∧
      markedDisk.readText firstSlip.path = .ok content ∧
      ¬ ShowsPlace (dropMark content.toList) ⟨1, 11⟩ s.toList ∧
      (((dropMark content.toList).splitOn '\n').map fun row =>
        displayWidth (String.ofList (row.take 10))).head? = some 10 ∧
      ∀ colors margin severity,
        (Cli.sourceLines colors displayWidth margin severity ⟨1, 11⟩ s).getLast? =
          some (caretLine colors margin severity 9) := by
  obtain ⟨l, hl, hproblems⟩ := run_markedDisk
  have hmem : firstSlip ∈ l.problems := by
    rw [hproblems]
    exact List.mem_cons_self
  refine ⟨l, "\uFEFFtitle = 'a\\q'\r\nbody = 'b\\q'\r\n", "\uFEFFtitle = 'a\\q'", hl, hmem, rfl, rfl,
    by decide +kernel, ?_, by decide +kernel, ?_⟩
  · rintro ⟨-, -, row, hrow, -, -, hleft⟩
    obtain rfl : row = "title = 'a\\q'\r".toList :=
      Option.some.inj (hrow.symm.trans (by decide +kernel))
    rcases hleft with hleft | hleft
    · exact absurd hleft (by decide +kernel)
    · exact absurd hleft (by decide +kernel)
  · intro colors margin severity
    have hwidth : displayWidth (String.ofList ("\uFEFFtitle = 'a\\q'".toList.take 10)) = 9 := by
      decide +kernel
    rw [getLast?_sourceLines]
    exact congrArg (fun n => some (caretLine colors margin severity n)) hwidth

end Polyglot
