import Polyglot.Project
import Polyglot.Proofs.Discovery

/-!
# Paths as they are shown

A path is shown from the root of the project, or whole if it does not lie there. Either way the name
of a file stays at its end, unless the root is the file itself. So two files of a directory are shown
alike only if their names are.

* `Path.slash_not_mem_shown`: only the root is shown with a slash;
* `Path.EndsIn`: the name at the end of a path, with `Path.endsIn_join` and `Path.EndsIn.unique`;
* `Path.relativeTo?_of_endsIn`, `Project.displayPath_of_endsIn`: it stays there;
* `Project.displayPath_join_inj`: the main statement.
-/

namespace Polyglot

/-- What is shown has a slash only where there is one. -/
lemma RawText.slash_not_mem_shown {bs : RawText} (h : slash ∉ bs) : '/' ∉ bs.shown.toList := by
  intro hmem
  refine h (RawText.subset_of_mem_shown hmem (by decide) ?_)
  decide

lemma RawText.slash_not_mem_ofText_shown {bs : RawText} (h : slash ∉ bs) :
    slash ∉ RawText.ofText bs.shown := by
  rw [RawText.mem_ofText_iff (c := '/') (by decide) (by decide)]
  exact slash_not_mem_shown h

namespace Path

/-! ### Components -/

lemma eq_root_of_mem_basePieces {path : Path} {piece : PathPiece}
    (h : piece ∈ Settings.basePieces path) : piece = ⟨.root, 0, 1⟩ := by
  unfold Settings.basePieces at h
  split at h
  · exact List.mem_singleton.1 h
  · cases h

/-- A component is made from one of the segments. -/
lemma exists_pieceOf_of_mem {first : Bool} {offset : Nat} {ss : List RawText} {piece : PathPiece}
    (h : piece ∈ piecesFrom first offset ss) :
    ∃ first' offset', ∃ s ∈ ss, pieceOf first' offset' s = some piece := by
  induction ss generalizing first offset with
  | nil => cases h
  | cons s ss ih =>
    rw [piecesFrom_cons, List.mem_append, Option.mem_toList] at h
    rcases h with h | h
    · exact ⟨first, offset, s, List.mem_cons_self .., h⟩
    · obtain ⟨first', offset', t, ht, hpiece⟩ := ih h
      exact ⟨first', offset', t, List.mem_cons_of_mem s ht, hpiece⟩

lemma bytes_of_pieceOf {first : Bool} {offset : Nat} {s : RawText} {piece : PathPiece}
    (h : pieceOf first offset s = some piece) :
    piece.start = offset ∧ piece.component.bytes = s := by
  unfold pieceOf at h
  split at h
  · cases h
  · split at h
    · rename_i hdot
      split at h
      · cases h
        exact ⟨rfl, hdot.symm⟩
      · cases h
    · split at h
      · rename_i hup
        cases h
        exact ⟨rfl, hup.symm⟩
      · cases h
        exact ⟨rfl, rfl⟩

/-- Only the root is shown with a slash. -/
lemma slash_not_mem_shown {path : Path} {c : Component} (h : c ∈ path.components) :
    c = .root ∨ '/' ∉ c.shown.toList := by
  obtain ⟨piece, hpiece, rfl⟩ := List.mem_map.1 h
  rw [Settings.pieces_eq, List.mem_append] at hpiece
  rcases hpiece with hbase | hpiece
  · rw [eq_root_of_mem_basePieces hbase]
    exact Or.inl rfl
  · obtain ⟨first, offset, s, hs, hmade⟩ := exists_pieceOf_of_mem hpiece
    rw [Component.shown, (bytes_of_pieceOf hmade).2]
    exact Or.inr (RawText.slash_not_mem_shown (mem_slashSegments hs).1)

/-! ### The name of a file -/

/-- There are no bytes, or they end at a slash. -/
def Fronts (bs : RawText) : Prop :=
  bs = [] ∨ bs.getLast? = some slash

lemma fronts_lead (ss : List RawText) : Fronts (lead ss) := by
  rcases List.eq_nil_or_concat ss with rfl | ⟨init, s, rfl⟩
  · exact Or.inl rfl
  · rw [List.concat_eq_append, lead_append]
    exact Or.inr List.getLast?_concat

/-- What stands before the name of a file in a directory. -/
def front (dir : Path) : RawText :=
  if dir.bytes.isEmpty then []
  else if dir.bytes.getLast? = some slash then dir.bytes
  else dir.bytes ++ [slash]

lemma bytes_join (dir : Path) {name : RawText} (hslash : slash ∉ name) :
    (dir.join ⟨name⟩).bytes = dir.front ++ name := by
  unfold join front
  rw [isAbsolute_eq_false hslash, Bool.false_or]
  split
  · rfl
  · split
    · rfl
    · simp

lemma fronts_front (dir : Path) : Fronts dir.front := by
  unfold front
  split
  · exact Or.inl rfl
  · split
    · exact Or.inr ‹_›
    · exact Or.inr (by simp)

lemma Fronts.drop {bs : RawText} (h : Fronts bs) (n : Nat) : Fronts (bs.drop n) := by
  rcases h with rfl | h
  · exact Or.inl (List.drop_nil)
  · by_cases hn : bs.length ≤ n
    · exact Or.inl (List.drop_of_length_le hn)
    · refine Or.inr ?_
      rw [List.getLast?_drop, if_neg hn, h]

/-- The segments of what stands in front of a name. -/
lemma Fronts.slashSegments_append {bs name : RawText} (h : Fronts bs) (hslash : slash ∉ name) :
    ∃ ss, slashSegments (bs ++ name) = ss ++ [name] ∧ lead ss = bs := by
  rcases h with rfl | h
  · exact ⟨[], slashSegments_of_not_mem hslash, rfl⟩
  · obtain ⟨bs, rfl⟩ := List.getLast?_eq_some_iff.1 h
    have hseg : slashSegments (bs ++ [slash] ++ name) = slashSegments bs ++ [name] := by
      rw [List.append_assoc, List.singleton_append, Polyglot.slashSegments_append,
        slashSegments_of_not_mem hslash]
    refine ⟨slashSegments bs, hseg, ?_⟩
    exact List.append_cancel_right (lead_slashSegments _ hseg)

/-- The path ends in this name, which stands behind a slash or alone. -/
def EndsIn (path : Path) (name : RawText) : Prop :=
  ∃ bs, path.bytes = bs ++ name ∧ Fronts bs

lemma endsIn_join (dir : Path) (name : FileName) : (dir.join name.toPath).EndsIn name.bytes :=
  ⟨dir.front, bytes_join dir name.slash_not_mem, fronts_front dir⟩

/-- A path ends in one name only. -/
lemma EndsIn.unique {path : Path} {a b : RawText} (ha : slash ∉ a) (hb : slash ∉ b)
    (hpa : path.EndsIn a) (hpb : path.EndsIn b) : a = b := by
  obtain ⟨bs, hbs, hfront⟩ := hpa
  obtain ⟨bs', hbs', hfront'⟩ := hpb
  obtain ⟨ss, hss, -⟩ := hfront.slashSegments_append ha
  obtain ⟨ss', hss', -⟩ := hfront'.slashSegments_append hb
  rw [← hbs, hbs', hss'] at hss
  exact (List.singleton_inj.1 (List.append_inj_right' hss rfl)).symm

lemma start_le_of_mem {first : Bool} {offset : Nat} {ss : List RawText} {piece : PathPiece}
    (h : piece ∈ piecesFrom first offset ss) : piece.start ≤ offset + (lead ss).length := by
  induction ss generalizing first offset with
  | nil => cases h
  | cons s ss ih =>
    have hlength : (lead (s :: ss)).length = s.length + ((lead ss).length + 1) := by
      simp [lead]
    rw [piecesFrom_cons, List.mem_append, Option.mem_toList] at h
    rcases h with h | h
    · rw [(bytes_of_pieceOf h).1]
      omega
    · have hstart := ih h
      omega

lemma pieceOf_name {name : RawText} (hname : FileName.IsStep name) (first : Bool) (offset : Nat) :
    pieceOf first offset name = some ⟨.normal name, offset, offset + name.length⟩ := by
  obtain ⟨hempty, hdot, hup⟩ := hname
  unfold pieceOf
  rw [if_neg hempty, if_neg hdot, if_neg hup]

/-- The name is the last component, and the others begin before it. -/
lemma pieces_of_endsIn {path : Path} (name : FileName) {bs : RawText}
    (hbytes : path.bytes = bs ++ name.bytes) (hbs : Fronts bs) :
    ∃ init, path.pieces = init ++ [⟨.normal name.bytes, bs.length, bs.length + name.bytes.length⟩] ∧
      ∀ piece ∈ init, piece.start ≤ bs.length := by
  obtain ⟨ss, hss, rfl⟩ := hbs.slashSegments_append name.slash_not_mem
  rw [Settings.pieces_eq, steps, hbytes, hss, piecesFrom_append, pieceOf_name name.isStep, Nat.zero_add,
    ← List.append_assoc]
  refine ⟨_, rfl, ?_⟩
  intro piece hpiece
  rcases List.mem_append.1 hpiece with hbase | hpiece
  · rw [eq_root_of_mem_basePieces hbase]
    exact Nat.zero_le _
  · simpa using start_le_of_mem hpiece

lemma components_of_endsIn {path : Path} {name : FileName} (h : path.EndsIn name.bytes) :
    ∃ init, path.components = init ++ [.normal name.bytes] := by
  obtain ⟨bs, hbytes, hbs⟩ := h
  obtain ⟨init, hpieces, -⟩ := pieces_of_endsIn name hbytes hbs
  exact ⟨init.map (·.component), by simp [components, hpieces]⟩

/-! ### A path seen from another one -/

lemma dropComponents_eq_some {ps rest : List PathPiece} {cs : List Component}
    (h : dropComponents ps cs = some rest) :
    ∃ first, ps = first ++ rest ∧ first.map (·.component) = cs := by
  induction ps, cs using dropComponents.induct with
  | case1 ps =>
    rw [dropComponents] at h
    exact ⟨[], Option.some.inj h, rfl⟩
  | case2 c cs => cases h
  | case3 piece ps cs ih =>
    rw [dropComponents, if_pos rfl] at h
    obtain ⟨first, rfl, rfl⟩ := ih h
    exact ⟨piece :: first, rfl, rfl⟩
  | case4 piece ps c cs hne =>
    rw [dropComponents, if_neg hne] at h
    cases h

/-- Seen from another one, a path ends in the same name, unless nothing is left of it. -/
lemma relativeTo?_of_endsIn {path base rest : Path} {name : FileName} (h : path.EndsIn name.bytes)
    (hrest : path.relativeTo? base = some rest) :
    rest.EndsIn name.bytes ∨ rest = ⟨[]⟩ ∧ path.components = base.components := by
  obtain ⟨bs, hbytes, hbs⟩ := h
  obtain ⟨init, hpieces, hstarts⟩ := pieces_of_endsIn name hbytes hbs
  obtain ⟨left, hleft, hcut⟩ := Option.map_eq_some_iff.1 hrest
  obtain ⟨first, hfirst, hbase⟩ := dropComponents_eq_some hleft
  cases left with
  | nil =>
    refine Or.inr ⟨hcut.symm, ?_⟩
    rw [components, hfirst, List.append_nil, hbase]
  | cons piece left =>
    refine Or.inl ?_
    -- The last piece that is left is the name, so that the path is cut only in front of it.
    have hlast : (piece :: left).getLast? =
        some ⟨.normal name.bytes, bs.length, bs.length + name.bytes.length⟩ := by
      have hwhole : path.pieces.getLast? = (piece :: left).getLast? := by
        rw [hfirst, List.getLast?_append_of_ne_nil _ (List.cons_ne_nil piece left)]
      rw [← hwhole, hpieces, List.getLast?_concat]
    have hstart : piece.start ≤ bs.length := by
      have hmem : piece ∈
          init ++ [⟨.normal name.bytes, bs.length, bs.length + name.bytes.length⟩] := by
        rw [← hpieces, hfirst]
        simp
      rcases List.mem_append.1 hmem with hinit | hend
      · exact hstarts piece hinit
      · rw [List.mem_singleton.1 hend]
    rw [List.head?_cons, hlast] at hcut
    refine ⟨bs.drop piece.start, ?_, hbs.drop piece.start⟩
    rw [← hcut]
    show (path.slice piece.start (bs.length + name.bytes.length)).bytes = _
    rw [slice, hbytes, ← List.length_append, List.take_length, List.drop_append_of_le_length hstart]

end Path

/-- Names that are joined by slashes. -/
lemma ofText_intercalate (names : List String) (last : String) :
    RawText.ofText ("/".intercalate (names ++ [last])) =
      lead (names.map RawText.ofText) ++ .ofText last := by
  induction names with
  | nil => simp [lead]
  | cons name names ih =>
    have hne : names ++ [last] ≠ [] := by simp
    rw [List.cons_append, String.intercalate_cons_of_ne_nil hne, RawText.ofText_append,
      RawText.ofText_append, ih]
    simp [lead]
    rfl

namespace Project

/-- The components of a path that are shown. -/
def shown (p : Project) (path : Path) : List Component :=
  ((path.relativeTo? p.root).getD path).components.filter (· != .current)

lemma displayPath_eq (p : Project) (path : Path) :
    p.displayPath path = "/".intercalate ((p.shown path).map Component.shown) := rfl

/-- A file is shown by a path that ends in its name, or not at all if the root is the file. -/
lemma displayPath_of_endsIn (p : Project) {path : Path} {name : FileName}
    (h : path.EndsIn name.bytes) : (Path.ofText (p.displayPath path)).EndsIn (.ofText name.shown) ∨
      p.displayPath path = "" ∧ path.components = p.root.components := by
  have hends : ((path.relativeTo? p.root).getD path).EndsIn name.bytes ∨
      (path.relativeTo? p.root).getD path = ⟨[]⟩ ∧ path.components = p.root.components := by
    cases hrel : path.relativeTo? p.root with
    | none => exact Or.inl h
    | some rest => exact Path.relativeTo?_of_endsIn h hrel
  rcases hends with hends | ⟨hnil, hroot⟩
  · obtain ⟨init, hinit⟩ := Path.components_of_endsIn hends
    have hshown : p.shown path = init.filter (· != .current) ++ [.normal name.bytes] := by
      rw [shown, hinit, List.filter_append]
      rfl
    refine Or.inl ⟨lead (((init.filter (· != .current)).map Component.shown).map RawText.ofText), ?_,
      Path.fronts_lead _⟩
    rw [Path.ofText, displayPath_eq, hshown, List.map_append, List.map_singleton, ofText_intercalate]
    rfl
  · refine Or.inr ⟨?_, hroot⟩
    rw [displayPath_eq, shown, hnil]
    decide

/-- **Two files of a directory are shown alike only if their names are.** -/
theorem displayPath_join_inj (p : Project) (dir : Path) {a b : FileName}
    (h : p.displayPath (dir.join a.toPath) = p.displayPath (dir.join b.toPath)) :
    a.shown = b.shown := by
  have hslash : ∀ name : FileName, slash ∉ RawText.ofText name.shown := fun name =>
    RawText.slash_not_mem_ofText_shown name.slash_not_mem
  have hne : ∀ {name : FileName}, ¬ (Path.ofText "").EndsIn (.ofText name.shown) := by
    rintro name ⟨bs, hbs, -⟩
    have hempty : name.bytes.shown = "" :=
      RawText.ofText_injective (List.append_eq_nil_iff.1 hbs.symm).2
    have hbytes : name.bytes = .ofText name.bytes.shown :=
      RawText.eq_ofText_of_shown (by rw [hempty]; simp)
    rw [hempty] at hbytes
    exact name.isStep.1 hbytes
  have hendsA := Path.endsIn_join dir a
  have hendsB := Path.endsIn_join dir b
  rcases p.displayPath_of_endsIn hendsA with hshownA | ⟨hemptyA, hrootA⟩ <;>
    rcases p.displayPath_of_endsIn hendsB with hshownB | ⟨hemptyB, hrootB⟩
  · rw [h] at hshownA
    exact RawText.ofText_injective (hshownA.unique (hslash a) (hslash b) hshownB)
  · rw [h, hemptyB] at hshownA
    exact absurd hshownA hne
  · rw [← h, hemptyA] at hshownB
    exact absurd hshownB hne
  · obtain ⟨init, hinit⟩ := Path.components_of_endsIn hendsA
    obtain ⟨init', hinit'⟩ := Path.components_of_endsIn hendsB
    rw [hrootA, ← hrootB, hinit'] at hinit
    have hsame := Component.normal.inj (List.singleton_inj.1 (List.append_inj_right' hinit rfl))
    exact congrArg RawText.shown hsame.symm

end Project

end Polyglot
