import Polyglot.Script.Block
import Mathlib.Data.List.Basic
import Mathlib.Tactic.Lemma

/-!
# Blocks compose like text

A block stands for the text of its lines. To glue blocks is to write their texts one after the other,
whether they have no line, one or several, and so it obeys the laws of writing.

* `glueLines_concat_cons`: where two stretches of lines meet;
* `glueLines_assoc`, `intercalate_glueLines`, `length_glueLines`: what is glued, its text and its lines;
* `count_newline_intercalate`: the line feeds of a text;
* `Block.compose_like_text`: the main statement.
-/

namespace Polyglot.Script

/-! ### Lines -/

@[simp] lemma glueLines_nil_left (ys : List String) : glueLines [] ys = ys := by
  rw [glueLines]

@[simp] lemma glueLines_nil_right (xs : List String) : glueLines xs [] = xs := by
  cases xs <;> simp [glueLines]

/-- Two stretches meet in one line. -/
lemma glueLines_concat_cons (xs : List String) (x y : String) (ys : List String) :
    glueLines (xs ++ [x]) (y :: ys) = xs ++ (x ++ y) :: ys := by
  induction xs with
  | nil => rfl
  | cons first xs ih =>
    obtain ⟨next, rest, hrest⟩ := List.exists_cons_of_ne_nil (List.concat_ne_nil x xs)
    have hstep : glueLines (first :: next :: rest) (y :: ys) =
        first :: glueLines (next :: rest) (y :: ys) := rfl
    rw [List.cons_append, hrest, hstep, ← hrest, ih, List.cons_append]

/-- **Gluing is associative.** -/
theorem glueLines_assoc (xs ys zs : List String) :
    glueLines (glueLines xs ys) zs = glueLines xs (glueLines ys zs) := by
  rcases List.eq_nil_or_concat' xs with rfl | ⟨before, x, rfl⟩
  · rw [glueLines_nil_left, glueLines_nil_left]
  rcases zs with _ | ⟨z, after⟩
  · rw [glueLines_nil_right, glueLines_nil_right]
  rcases ys with _ | ⟨y, ys⟩
  · rw [glueLines_nil_right, glueLines_nil_left]
  rcases List.eq_nil_or_concat' ys with rfl | ⟨between, last, rfl⟩
  · -- All three stretches meet in one line.
    have hright : glueLines [y] (z :: after) = (y ++ z) :: after := glueLines_concat_cons [] y z after
    rw [hright, glueLines_concat_cons, glueLines_concat_cons, glueLines_concat_cons,
      String.append_assoc]
  · have hright : glueLines (y :: (between ++ [last])) (z :: after) =
        y :: (between ++ (last ++ z) :: after) := glueLines_concat_cons (y :: between) last z after
    have hleft : before ++ (x ++ y) :: (between ++ [last]) =
        (before ++ (x ++ y) :: between) ++ [last] := by simp
    rw [hright, glueLines_concat_cons, glueLines_concat_cons, hleft, glueLines_concat_cons]
    simp

/-- The text of lines that are glued. -/
theorem intercalate_glueLines (xs ys : List String) :
    "\n".intercalate (glueLines xs ys) = "\n".intercalate xs ++ "\n".intercalate ys := by
  rcases List.eq_nil_or_concat' xs with rfl | ⟨before, x, rfl⟩
  · simp
  rcases ys with _ | ⟨y, after⟩
  · simp
  rw [glueLines_concat_cons]
  by_cases hbefore : before = []
  · rw [hbefore]
    exact String.intercalate_cons_append
  · rw [String.intercalate_append_of_ne_nil hbefore (by simp), String.intercalate_cons_append,
      String.intercalate_append_of_ne_nil hbefore (by simp), String.intercalate_singleton]
    simp only [String.append_assoc]

/-- One line is saved where two stretches meet. -/
lemma length_glueLines {xs ys : List String} (hxs : xs ≠ []) (hys : ys ≠ []) :
    (glueLines xs ys).length = xs.length + ys.length - 1 := by
  obtain ⟨before, x, rfl⟩ := (List.eq_nil_or_concat' xs).resolve_left hxs
  obtain ⟨y, after, rfl⟩ := List.exists_cons_of_ne_nil hys
  rw [glueLines_concat_cons]
  simp only [List.length_append, List.length_cons, List.length_nil]
  omega

/-- The line feeds of a text are those between the lines, and those in them. -/
lemma count_newline_intercalate {lines : List String} (h : lines ≠ []) :
    ("\n".intercalate lines).toList.count '\n' + 1 =
      lines.length + (lines.flatMap String.toList).count '\n' := by
  induction lines with
  | nil => exact absurd rfl h
  | cons line lines ih =>
    by_cases hlines : lines = []
    · rw [hlines, String.intercalate_singleton]
      simp [Nat.add_comm]
    · have hrest := ih hlines
      have hbreak : "\n".toList.count '\n' = 1 := by decide
      rw [String.intercalate_cons_of_ne_nil hlines, String.toList_append, String.toList_append,
        List.count_append, List.count_append, List.flatMap_cons, List.count_append, List.length_cons,
        hbreak]
      omega

/-! ### Blocks -/

namespace Block

instance : Std.Associative glue :=
  ⟨fun a b c => congrArg Block.mk (glueLines_assoc a.lines b.lines c.lines)⟩

instance : Std.LawfulIdentity glue empty where
  left_id a := congrArg Block.mk (glueLines_nil_left a.lines)
  right_id a := congrArg Block.mk (glueLines_nil_right a.lines)

lemma glue_assoc (a b c : Block) : (a.glue b).glue c = a.glue (b.glue c) :=
  Std.Associative.assoc a b c

@[simp] lemma empty_glue (a : Block) : empty.glue a = a :=
  Std.LawfulLeftIdentity.left_id a

@[simp] lemma glue_empty (a : Block) : a.glue empty = a :=
  Std.LawfulRightIdentity.right_id a

lemma text_glue (a b : Block) : (a.glue b).text = a.text ++ b.text :=
  intercalate_glueLines a.lines b.lines

@[simp] lemma glueAll_nil : glueAll [] = empty :=
  rfl

lemma glueAll_cons (b : Block) (bs : List Block) : glueAll (b :: bs) = b.glue (glueAll bs) := by
  calc glueAll (b :: bs) = bs.foldl glue (empty.glue b) := rfl
    _ = bs.foldl glue (b.glue empty) := by rw [empty_glue, glue_empty]
    _ = b.glue (glueAll bs) := List.foldl_assoc

/-- To glue all blocks of two lists is to glue what each of them gives. -/
theorem glueAll_append (bs cs : List Block) :
    glueAll (bs ++ cs) = (glueAll bs).glue (glueAll cs) := by
  induction bs with
  | nil => rw [List.nil_append, glueAll_nil, empty_glue]
  | cons b bs ih => rw [List.cons_append, glueAll_cons, ih, glueAll_cons, glue_assoc]

/-- The text of blocks that are glued. -/
theorem text_glueAll (bs : List Block) : (glueAll bs).text = String.join (bs.map text) := by
  induction bs with
  | nil => rfl
  | cons b bs ih => rw [glueAll_cons, text_glue, ih, List.map_cons, String.join_cons]

/-- Blocks are indented one by one. -/
lemma indent_stack (bs : List Block) : (stack bs).indent = stack (bs.map indent) := by
  simp only [indent, stack, List.map_flatMap, List.flatMap_map]

/-- Without line feeds in its lines, a block has one line more than there are line feeds in its
text. -/
lemma length_lines_eq {b : Block} (hb : b.lines ≠ []) (hlines : ∀ line ∈ b.lines, '\n' ∉ line.toList) :
    b.lines.length = b.text.toList.count '\n' + 1 := by
  have hnone : (b.lines.flatMap String.toList).count '\n' = 0 := by
    refine List.count_eq_zero_of_not_mem fun hmem => ?_
    obtain ⟨line, hline, hin⟩ := List.mem_flatMap.1 hmem
    exact hlines line hline hin
  rw [text, count_newline_intercalate hb, hnone, Nat.add_zero]

/-- **Blocks compose like text.** To glue blocks is associative, and the empty block changes nothing on
either side. The text of what is glued is that of the blocks, one after the other; so it is if a block
goes before another, and if a list of blocks is glued. Where two blocks meet that have lines, there is
one line less. Blocks one below the other are indented one by one. If no line of a block has a line feed
in it, the lines of the block are told by the line feeds of its text. -/
theorem compose_like_text (a b c : Block) (bs cs : List Block) :
    (a.glue b).glue c = a.glue (b.glue c) ∧ empty.glue a = a ∧ a.glue empty = a ∧
    (a.glue b).text = a.text ++ b.text ∧
    (a.lead b).lead c = a.lead (c.glue b) ∧ (a.lead b).text = b.text ++ a.text ∧
    glueAll [a] = a ∧ glueAll (bs ++ cs) = (glueAll bs).glue (glueAll cs) ∧
    (glueAll bs).text = String.join (bs.map text) ∧
    (a.lines ≠ [] → b.lines ≠ [] →
      (a.glue b).lines.length = a.lines.length + b.lines.length - 1) ∧
    (stack bs).indent = stack (bs.map indent) ∧
    (a.lines ≠ [] → (∀ line ∈ a.lines, '\n' ∉ line.toList) →
      a.lines.length = a.text.toList.count '\n' + 1) :=
  ⟨glue_assoc a b c, empty_glue a, glue_empty a, text_glue a b, (glue_assoc c b a).symm, text_glue b a,
    empty_glue a, glueAll_append bs cs, text_glueAll bs, length_glueLines, indent_stack bs,
    length_lines_eq⟩

/-- A class after the words that export it, with an empty line in it and a line of its own at the
end. -/
theorem compose_like_text_exported :
    let a : Block := ⟨["export default ", "class A \x7b"]⟩
    let b : Block := ⟨["", "  x;", "\x7d"]⟩
    a.lines ≠ [] ∧ b.lines ≠ [] ∧ (∀ line ∈ a.lines, '\n' ∉ line.toList) ∧
    (a.glue b).text = "export default \nclass A \x7b\n  x;\n\x7d" ∧
    (a.glue b).lines.length = 4 ∧ a.lines.length = a.text.toList.count '\n' + 1 := by
  intro a b
  have ha : a.lines ≠ [] := by simp [a]
  have hb : b.lines ≠ [] := by simp [b]
  have hlines : ∀ line ∈ a.lines, '\n' ∉ line.toList := by
    simp only [a, List.forall_mem_cons]
    decide
  obtain ⟨-, -, -, htext, -, -, -, -, -, hlength, -, hcount⟩ := compose_like_text a b empty [] []
  refine ⟨ha, hb, hlines, ?_, hlength ha hb, hcount ha hlines⟩
  rw [htext]
  decide

end Block

end Polyglot.Script
