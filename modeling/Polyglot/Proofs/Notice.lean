import Polyglot.Proofs.ShownPaths

/-!
# The notice at the top of generated files

The notice is printed as a comment, which ends at the first closing mark. A printed comment has no
mark but its last two characters exactly if the text has none: each line stands behind a blank, and
a blank or a line feed is between any two pieces that the printer puts side by side. In a path, a mark
comes about where a directory whose name ends in a star meets the slash after it, and nowhere else.

* `Closes`, `OneComment`: a text with a closing mark, and a text that is one comment;
* `closes_append_iff`, `closes_joined_lines`: where a mark can come about;
* `oneComment_printComment`: what is printed is one comment exactly if the text does not close it;
* `closes_displayPath_iff`: where a shown path has a mark;
* `oneComment_notice`: the main statement.
-/

namespace Polyglot

/-- The text has the mark that ends a comment. -/
def Closes (cs : List Char) : Prop :=
  ['*', '/'] <:+: cs

instance (cs : List Char) : Decidable (Closes cs) :=
  inferInstanceAs (Decidable (['*', '/'] <:+: cs))

/-- The text begins as a comment, and the first mark that ends one is its last two characters. -/
def OneComment (cs : List Char) : Prop :=
  ∃ body, cs = ['/', '*'] ++ body ++ ['*', '/'] ∧ ¬ Closes (['/', '*'] ++ body ++ ['*'])

/-! ### Marks -/

lemma not_closes_of_not_mem {cs : List Char} (h : '/' ∉ cs) : ¬ Closes cs :=
  fun hcs => h (hcs.subset (by simp))

lemma closes_cons_iff {c : Char} {cs : List Char} :
    Closes (c :: cs) ↔ (c = '*' ∧ cs.head? = some '/') ∨ Closes cs := by
  unfold Closes
  rw [List.infix_cons_iff]
  refine or_congr_left ?_
  rw [List.cons_prefix_cons, List.head?_eq_some_iff, eq_comm]
  refine and_congr_right fun _ => ⟨?_, ?_⟩
  · rintro ⟨rest, rfl⟩
    exact ⟨rest, rfl⟩
  · rintro ⟨rest, rfl⟩
    exact ⟨rest, rfl⟩

/-- A mark lies in the first stretch, or in the second, or half in each. -/
lemma closes_append_iff {a b : List Char} :
    Closes (a ++ b) ↔ Closes a ∨ Closes b ∨ a.getLast? = some '*' ∧ b.head? = some '/' := by
  induction a with
  | nil => simp [Closes]
  | cons c a ih =>
    rw [List.cons_append, closes_cons_iff, closes_cons_iff, ih]
    cases a with
    | nil =>
      have hnil : ¬ Closes [] := by decide
      simp only [List.nil_append, List.head?_nil, List.getLast?_nil, List.getLast?_singleton, hnil,
        reduceCtorEq, Option.some.injEq, and_false, false_and, false_or, or_false]
      exact or_comm
    | cons d a =>
      rw [List.getLast?_cons_cons]
      exact or_assoc.symm

/-- No mark reaches over another character. -/
lemma closes_append_cons {c : Char} (hstar : c ≠ '*') (hslash : c ≠ '/') (a b : List Char) :
    Closes (a ++ c :: b) ↔ Closes a ∨ Closes b := by
  rw [closes_append_iff, closes_cons_iff]
  simp [hstar, hslash]

lemma closes_cons_of_ne {c : Char} (hstar : c ≠ '*') (cs : List Char) :
    Closes (c :: cs) ↔ Closes cs := by
  rw [closes_cons_iff]
  simp [hstar]

/-! ### Lines -/

/-- No mark reaches from one line to the next. -/
lemma closes_joined_lines (lines : List (List Char)) :
    Closes (['\n'].intercalate lines) ↔ ∃ line ∈ lines, Closes line := by
  induction lines with
  | nil => simp [Closes]
  | cons line lines ih =>
    cases lines with
    | nil => simp
    | cons next lines =>
      rw [List.intercalate_cons_cons, List.append_assoc, List.singleton_append,
        closes_append_cons (by decide) (by decide), ih]
      simp

lemma closes_iff_line (cs : List Char) : Closes cs ↔ ∃ line ∈ cs.splitOn '\n', Closes line := by
  rw [← closes_joined_lines, List.intercalate_splitOn]

namespace Script

/-- What stands between the opening and the closing mark of a printed comment. -/
def commentBody : List (List Char) → List Char
  | [] => [' ', ' ']
  | [only] => ' ' :: only ++ [' ']
  | first :: rest =>
    ' ' :: ['\n'].intercalate (first :: rest.map ([' ', '*', ' '] ++ ·)) ++ ['\n', ' ']

lemma toList_printComment (text : String) : (printComment text).text.toList =
    ['/', '*'] ++ commentBody (text.toList.splitOn '\n') ++ ['*', '/'] := by
  unfold printComment
  rcases text.toList.splitOn '\n' with _ | ⟨first, _ | ⟨next, rest⟩⟩
  · decide
  · simp [Block.text, Block.line, commentBody]
  · simp only [Block.text, commentBody, List.map_cons]
    rw [String.intercalate_append_of_ne_nil (by simp) (by simp), String.intercalate_cons_append]
    simp [Function.comp_def]

/-- The blanks around the lines keep the marks of the comment away from them. -/
lemma closes_commentBody (lines : List (List Char)) :
    Closes (['/', '*'] ++ commentBody lines ++ ['*']) ↔ ∃ line ∈ lines, Closes line := by
  have hopening : ¬ Closes ['/', '*'] := by decide
  have hstar : ¬ Closes ['*'] := by decide
  have hbehind : ∀ line, Closes ([' ', '*', ' '] ++ line) ↔ Closes line := by
    intro line
    show Closes ([' ', '*'] ++ ' ' :: line) ↔ _
    rw [closes_append_cons (by decide) (by decide)]
    exact or_iff_right (by decide)
  rcases lines with _ | ⟨first, _ | ⟨next, rest⟩⟩
  · exact iff_of_false (by decide) (by simp)
  · have hprinted : ['/', '*'] ++ commentBody [first] ++ ['*'] =
        ['/', '*'] ++ ' ' :: (first ++ ' ' :: ['*']) := by simp [commentBody]
    rw [hprinted, closes_append_cons (by decide) (by decide),
      closes_append_cons (by decide) (by decide)]
    simp [hopening, hstar]
  · have hprinted : ['/', '*'] ++ commentBody (first :: next :: rest) ++ ['*'] = ['/', '*'] ++ ' ' ::
        (['\n'].intercalate (first :: (next :: rest).map ([' ', '*', ' '] ++ ·)) ++
          '\n' :: [' ', '*']) := by simp [commentBody]
    have hlast : ¬ Closes [' ', '*'] := by decide
    rw [hprinted, closes_append_cons (by decide) (by decide),
      closes_append_cons (by decide) (by decide), closes_joined_lines]
    simp only [hopening, hlast, false_or, or_false, List.map_cons, List.exists_mem_cons_iff,
      List.mem_map, exists_exists_and_eq_and, hbehind]

/-- **A printed comment** is one comment exactly if its text does not close it. -/
theorem oneComment_printComment (text : String) :
    OneComment (printComment text).text.toList ↔ ¬ Closes text.toList := by
  rw [closes_iff_line, ← closes_commentBody, toList_printComment]
  constructor
  · rintro ⟨body, hbody, hnot⟩
    rwa [← List.append_inj_left' hbody rfl] at hnot
  · exact fun hnot => ⟨_, rfl, hnot⟩

end Script

/-! ### The text of the notice -/

/-- The sources stand on lines of their own. -/
lemma closes_append_lines (cs : List Char) (sources : List String) :
    Closes (cs ++ sources.flatMap fun s => '\n' :: s.toList) ↔
      Closes cs ∨ ∃ s ∈ sources, Closes s.toList := by
  induction sources generalizing cs with
  | nil => simp
  | cons s sources ih =>
    rw [List.flatMap_cons, ← List.append_assoc, ih, closes_append_cons (by decide) (by decide)]
    simp [or_assoc]

lemma toList_noticeText (tool : String) (sources : List String) :
    (Generate.noticeText tool sources).toList =
      "Generated by ".toList ++ tool.toList ++ " from the following files:".toList ++
        sources.flatMap fun s => '\n' :: s.toList := by
  have hlines : ∀ s : String, ("\n" ++ s).toList = '\n' :: s.toList := fun s => String.toList_append
  show (("Generated by " ++ tool ++ " from the following files:") ++
    String.join (sources.map ("\n" ++ ·))).toList = _
  rw [String.toList_append, String.toList_append, String.toList_append, String.toList_join,
    List.flatMap_map]
  simp only [hlines]

lemma closes_noticeText (tool : String) (sources : List String) :
    Closes (Generate.noticeText tool sources).toList ↔
      Closes tool.toList ∨ ∃ s ∈ sources, Closes s.toList := by
  have hfirst : ¬ Closes "Generated by ".toList := not_closes_of_not_mem (by decide)
  have hlast : ¬ Closes " from the following files:".toList := not_closes_of_not_mem (by decide)
  have hblank : "Generated by ".toList.getLast? ≠ some '*' := by decide
  have hblank' : " from the following files:".toList.head? ≠ some '/' := by decide
  rw [toList_noticeText, closes_append_lines]
  refine or_congr_left ?_
  -- The blanks around the name of the tool keep it from making a mark with what stands beside it.
  rw [closes_append_iff, or_iff_left fun h => h.elim hlast fun h => hblank' h.2, closes_append_iff,
    or_iff_right hfirst, or_iff_left fun h => hblank h.1]

/-! ### Paths as they are shown -/

/-- Names that are joined by slashes have a mark where one that is not the last ends in a star. -/
lemma closes_joined_names {names : List (List Char)} (h : ∀ name ∈ names, ¬ Closes name) :
    Closes (['/'].intercalate names) ↔ ∃ name ∈ names.dropLast, name.getLast? = some '*' := by
  induction names with
  | nil => simp [Closes]
  | cons name names ih =>
    obtain ⟨hname, hnames⟩ := List.forall_mem_cons.1 h
    cases names with
    | nil => simpa using hname
    | cons next names =>
      rw [List.intercalate_cons_cons, List.append_assoc, List.singleton_append, closes_append_iff,
        closes_cons_of_ne (by decide), ih hnames, List.dropLast_cons_cons]
      simp [hname, or_comm]

lemma not_closes_of_mem_components {path : Path} {c : Component} (h : c ∈ path.components) :
    ¬ Closes c.shown.toList := by
  rcases Path.slash_not_mem_shown h with rfl | hslash
  · decide
  · exact not_closes_of_not_mem hslash

namespace Project

/-- A path is shown with a closing mark exactly if a directory on it has a name that ends in a star. -/
theorem closes_displayPath_iff (p : Project) (path : Path) : Closes (p.displayPath path).toList ↔
    ∃ name, .normal name ∈ (p.shown path).dropLast ∧ name.shown.toList.getLast? = some '*' := by
  have hnone : ∀ cs ∈ (p.shown path).map fun c => c.shown.toList, ¬ Closes cs := by
    intro cs hcs
    obtain ⟨c, hc, rfl⟩ := List.mem_map.1 hcs
    exact not_closes_of_mem_components (List.mem_of_mem_filter hc)
  have hjoined : (p.displayPath path).toList =
      ['/'].intercalate ((p.shown path).map fun c => c.shown.toList) := by
    rw [displayPath_eq, String.toList_intercalate, List.map_map]
    rfl
  rw [hjoined, closes_joined_names hnone, ← List.map_dropLast]
  simp only [List.mem_map, exists_exists_and_eq_and]
  constructor
  · rintro ⟨c, hc, hstar⟩
    cases c with
    | root => exact absurd hstar (by decide)
    | current => exact absurd hstar (by decide)
    | parent => exact absurd hstar (by decide)
    | normal name => exact ⟨name, hc, hstar⟩
  · rintro ⟨name, hname, hstar⟩
    exact ⟨.normal name, hname, hstar⟩

open Script (printComment)
open Generate (noticeText)

/-- **When the notice is one comment.** Let the notice name a tool and some files. What is printed
begins as a comment and ends at the first closing mark exactly if the name of the tool has no such mark
and no directory on the shown path of a file has a name that ends in a star. -/
theorem oneComment_notice (p : Project) (tool : String) (paths : List Path) :
    OneComment (printComment (noticeText tool (paths.map p.displayPath))).text.toList ↔
      ¬ Closes tool.toList ∧ ∀ path ∈ paths, ∀ name, .normal name ∈ (p.shown path).dropLast →
        name.shown.toList.getLast? ≠ some '*' := by
  rw [Script.oneComment_printComment, closes_noticeText, not_or]
  refine and_congr_right fun _ => ?_
  simp only [List.mem_map, exists_exists_and_eq_and, closes_displayPath_iff]
  push Not
  rfl

/-- The comment ends in the middle of the path, and the rest of the path is read as code. -/
theorem not_oneComment_starred :
    ¬ Closes (toolName ++ " " ++ toolVersion).toList ∧
    (printComment (noticeText (toolName ++ " " ++ toolVersion)
      [(withoutSettings (.ofText "a*")).displayPath (.ofText "a*/en.tm")])).text =
        "/* Generated by elzii-tools 0.4.0 from the following files:\n * a*/en.tm\n */" ∧
    ¬ OneComment (printComment (noticeText (toolName ++ " " ++ toolVersion)
      [(withoutSettings (.ofText "a*")).displayPath (.ofText "a*/en.tm")])).text.toList := by
  refine ⟨by decide +kernel, by decide +kernel, ?_⟩
  rw [Script.oneComment_printComment, not_not]
  decide +kernel

end Project

end Polyglot
