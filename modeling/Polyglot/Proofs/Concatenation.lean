import Polyglot.Proofs.Embedding

/-!
# Message files one after the other

Two message files that can be read can be read as one, with a line feed between them.

* `statements_concat`: the statements of two texts that are put together;
* `Draft.followedBy`: what two files say together, with `followedBy_addAll` for the statements of the
  second;
* `read_append`: the main statement.
-/

namespace Polyglot

namespace Read

open Cursor

/-- **The statements of two texts** that are put together with a line feed between them. -/
theorem statements_concat {cs ds : List Char} {ss ts : List (At Statement)}
    (hss : statements false (.ofText cs) = .ok ss) (hts : statements false (.ofText ds) = .ok ts)
    (hheader : ss.any (·.value.isHeader) = true → ∀ t ∈ ts, t.value.isHeader = false) :
    statements false (.ofText (cs ++ '\n' :: ds)) =
      .ok (ss ++ ts.map (At.moveDown (1 + cs.count '\n'))) := by
  have hstart : (Position.start.afterAll cs).after '\n' = Position.start.down (1 + cs.count '\n') := by
    rw [Position.after, if_pos rfl, line_afterAll, Nat.add_comm]
    rfl
  have hzero : ss.map (At.moveDown 0) = ss := List.map_id'' moveDown_zero ss
  have hembed : (⟨ds, Position.start.down (1 + cs.count '\n')⟩ : Cursor) =
      (ofText ds).embed (1 + cs.count '\n') [] := by
    rw [embed, ofText, List.append_nil]
  calc statements false (.ofText (cs ++ '\n' :: ds))
      = (statements (ss.any (·.value.isHeader)) ⟨'\n' :: ds, Position.start.afterAll cs⟩).map
          (ss ++ ·) := by
        have hone := statements_embed (k := 0) (endsLine_cons ds) false hss fun h => by cases h
        rwa [hzero] at hone
    _ = (statements (ss.any (·.value.isHeader)) ((ofText ds).embed (1 + cs.count '\n') [])).map
          (ss ++ ·) := by
        rw [statements_line, hstart, hembed]
    _ = .ok (ss ++ ts.map (At.moveDown (1 + cs.count '\n'))) := by
        rw [statements_embed endsLine_nil _ hts hheader, statements_nil rfl]
        simp [Except.map]

end Read

/-! ### What two files say together -/

def Definition.down (k : Nat) (d : Definition) : Definition :=
  { d with position := d.position.down k }

/-- A draft with all its places `k` lines further down. -/
def Draft.down (k : Nat) (d : Draft) : Draft where
  document := { d.document with definitions := d.document.definitions.map (Definition.down k) }
  slips := d.slips.map (At.down k)

namespace Draft

lemma down_addDirective (k : Nat) (d : Draft) (name : String) (args : List String) (p : Position) :
    (d.addDirective name args p).down k = (d.down k).addDirective name args (p.down k) := by
  unfold Draft.addDirective
  simp only [Draft.down]
  split
  · rfl
  · simp [At.down]

theorem down_add (k : Nat) (d : Draft) (s : At Statement) :
    (d.add s).down k = (d.down k).add (s.moveDown k) := by
  obtain ⟨value, p⟩ := s
  cases value with
  | comment => rfl
  | header code => rfl
  | directive name args => exact down_addDirective k d name args p
  | message key visibility text =>
    simp [Draft.add, Draft.down, At.moveDown, Statement.down, Definition.down, Text.down, Text.content,
      Text.parameters]

/-- What two drafts say together, the first one first. -/
def followedBy (d e : Draft) : Draft where
  document :=
    { header := d.document.header <|> e.document.header
      directives := d.document.directives ++ e.document.directives
      definitions := d.document.definitions ++ e.document.definitions }
  slips := d.slips ++ e.slips

/-- No header and no directive is given by both. -/
def Apart (d e : Draft) : Prop :=
  (d.document.header = none ∨ e.document.header = none) ∧
    (d.document.directives = [] ∨ e.document.directives = [])

lemma followedBy_empty (d : Draft) : d.followedBy {} = d := by
  simp [followedBy]

/-- A directive that can be built is taken in unless it is there; any other leaves a slip. -/
lemma addDirective_cases (name : String) (args : List String) :
    (∃ fault, ∀ (d : Draft) p, d.addDirective name args p =
      { d with slips := d.slips ++ [⟨.directive fault, p⟩] }) ∨
    ∃ dir, ∀ (d : Draft) p, d.addDirective name args p =
      if d.document.directives.contains dir then
        { d with slips := d.slips ++ [⟨.directive (.duplicate dir), p⟩] }
      else { d with document := { d.document with directives := d.document.directives ++ [dir] } } := by
  cases hbuild : Directive.build name args with
  | error fault =>
    refine Or.inl ⟨fault, fun d p => ?_⟩
    rw [addDirective, hbuild]
    rfl
  | ok dir =>
    refine Or.inr ⟨dir, fun d p => ?_⟩
    have hbind : (Directive.build name args).bind (Directive.addTo d.document.directives) =
        if d.document.directives.contains dir then .error (.duplicate dir)
        else .ok (d.document.directives ++ [dir]) := by
      rw [hbuild]
      rfl
    rw [addDirective, hbind]
    split
    · rename_i hdir
      split at hdir <;> cases hdir
      simp_all
    · rename_i hdir
      split at hdir <;> cases hdir
      simp_all

/-- A statement takes no header and no directive away. -/
lemma Apart.of_add {d e : Draft} {s : At Statement} (h : d.Apart (e.add s)) : d.Apart e := by
  obtain ⟨value, p⟩ := s
  cases value with
  | comment => exact h
  | header code =>
    obtain hnone | hnone := h.1
    · exact ⟨Or.inl hnone, h.2⟩
    · cases hnone
  | directive name args =>
    have h : d.Apart (e.addDirective name args p) := h
    rcases addDirective_cases name args with ⟨fault, hadd⟩ | ⟨dir, hadd⟩
    · rw [hadd] at h
      exact h
    · rw [hadd] at h
      split at h
      · exact h
      · refine ⟨h.1, h.2.imp_right fun hnil => ?_⟩
        simp at hnil
  | message key visibility text => exact h

/-- A statement of the second file is added to what both say. -/
lemma followedBy_add {d e : Draft} {s : At Statement} (h : d.Apart (e.add s)) :
    (d.followedBy e).add s = d.followedBy (e.add s) := by
  obtain ⟨value, p⟩ := s
  cases value with
  | comment => rfl
  | header code =>
    obtain hnone | hnone := h.1
    · simp [followedBy, add, hnone]
    · cases hnone
  | directive name args =>
    have h : d.Apart (e.addDirective name args p) := h
    show (d.followedBy e).addDirective name args p = d.followedBy (e.addDirective name args p)
    rcases addDirective_cases name args with ⟨fault, hadd⟩ | ⟨dir, hadd⟩
    · simp [hadd, followedBy]
    · -- the first file gives no directive, since the second one does
      have hnil : d.document.directives = [] := by
        refine h.2.resolve_right fun hnil => ?_
        rw [hadd] at hnil
        split at hnil
        · rename_i hdir
          rw [show e.document.directives = [] from hnil] at hdir
          cases hdir
        · simp at hnil
      simp only [hadd, followedBy, hnil, List.nil_append]
      split
      · simp
      · simp
  | message key visibility text => simp [followedBy, add]

theorem followedBy_addAll {d : Draft} (ss : List (At Statement))
    (h : d.Apart (ss.foldl add {})) : ss.foldl add d = d.followedBy (ss.foldl add {}) := by
  induction ss using List.reverseRecOn with
  | nil => exact d.followedBy_empty.symm
  | append_singleton ss s ih =>
    rw [List.foldl_concat] at h ⊢
    rw [List.foldl_concat, ih h.of_add, followedBy_add h]

lemma down_addAll (k : Nat) (ss : List (At Statement)) :
    (ss.map (At.moveDown k)).foldl add {} = (ss.foldl add {}).down k := by
  induction ss using List.reverseRecOn with
  | nil => rfl
  | append_singleton ss s ih =>
    rw [List.map_append, List.foldl_append, ih, List.foldl_concat, down_add]
    rfl

/-- There is a header in the draft exactly if one was read. -/
lemma header_addAll (ss : List (At Statement)) :
    (ss.foldl add {}).document.header.isSome = ss.any (·.value.isHeader) := by
  induction ss using List.reverseRecOn with
  | nil => rfl
  | append_singleton ss s ih =>
    rw [List.foldl_concat, List.any_append, ← ih]
    obtain ⟨value, p⟩ := s
    cases value with
    | comment => simp [add, Statement.isHeader]
    | header code => simp [add, Statement.isHeader]
    | directive name args =>
      show ((ss.foldl add {}).addDirective name args p).document.header.isSome = _
      rcases addDirective_cases name args with ⟨fault, hadd⟩ | ⟨dir, hadd⟩
      · simp [hadd, Statement.isHeader]
      · rw [hadd]
        split <;> simp [Statement.isHeader]
    | message key visibility text => simp [add, Statement.isHeader]

end Draft

/-! ### One text -/

lemma count_dropMark (cs : List Char) : (dropMark cs).count '\n' = cs.count '\n' := by
  cases cs with
  | nil => rfl
  | cons c cs =>
    rw [dropMark]
    split
    · rename_i hc
      rw [hc, List.count_cons_of_ne (by decide)]
    · rfl

lemma dropMark_of_head {cs : List Char} (h : cs.head? ≠ some byteOrderMark) : dropMark cs = cs := by
  cases cs with
  | nil => rfl
  | cons c cs =>
    rw [dropMark, if_neg]
    rintro rfl
    exact h rfl

lemma dropMark_append (cs ds : List Char) : dropMark (cs ++ '\n' :: ds) = dropMark cs ++ '\n' :: ds := by
  cases cs with
  | nil => rfl
  | cons c cs =>
    rw [List.cons_append, dropMark, dropMark]
    split <;> rfl

lemma directives_eq_nil {ds : List Directive} (h : Directive.reference ∉ ds) : ds = [] := by
  cases ds with
  | nil => rfl
  | cons d ds =>
    cases d
    exact absurd (List.mem_cons_self ..) h

/-- **Two files can be read as one.** If both can be read, and they do not both give a header or the
reference directive, then they can be read with a line feed between them, and the whole says what they
say, one after the other. The places in the second file are as many lines further down as the first one
takes. -/
theorem read_append {first second : String} {d e : Draft} (hfirst : Document.read first = .ok d)
    (hsecond : Document.read second = .ok e) (hmark : second.toList.head? ≠ some byteOrderMark)
    (hheader : d.document.header = none ∨ e.document.header = none)
    (hreference : Directive.reference ∉ d.document.directives ∨
      Directive.reference ∉ e.document.directives) :
    Document.read (first ++ "\n" ++ second) = .ok
      { document :=
          { header := d.document.header <|> e.document.header
            directives := d.document.directives ++ e.document.directives
            definitions := d.document.definitions ++
              e.document.definitions.map (Definition.down (1 + first.toList.count '\n')) }
        slips := d.slips ++ e.slips.map (At.down (1 + first.toList.count '\n')) } := by
  obtain ⟨ss, hss, rfl⟩ := map_eq_ok_iff.1 hfirst
  obtain ⟨ts, hts, rfl⟩ := map_eq_ok_iff.1 hsecond
  rw [dropMark_of_head hmark] at hts
  have happart : (ss.foldl Draft.add {}).Apart ((ts.map (At.moveDown
      (1 + first.toList.count '\n'))).foldl Draft.add {}) := by
    rw [Draft.down_addAll]
    exact ⟨hheader, hreference.imp directives_eq_nil directives_eq_nil⟩
  -- a header in the first text rules out one in the second
  have hnone : ss.any (·.value.isHeader) = true → ∀ t ∈ ts, t.value.isHeader = false := by
    rw [← Draft.header_addAll]
    intro hsome
    rcases hheader with hnone | hnone
    · rw [hnone] at hsome
      cases hsome
    · have hany := (Draft.header_addAll ts).symm.trans (congrArg Option.isSome hnone)
      exact fun t ht => Bool.eq_false_iff.2 (List.any_eq_false.1 hany t ht)
  have hboth := Read.statements_concat hss hts hnone
  rw [count_dropMark] at hboth
  have hlist : (first ++ "\n" ++ second).toList = first.toList ++ '\n' :: second.toList := by
    simp
  rw [Document.read, hlist, dropMark_append, hboth]
  show Except.ok ((ss ++ _).foldl Draft.add {}) = _
  rw [List.foldl_append, Draft.followedBy_addAll _ happart, Draft.down_addAll]
  rfl

/-- A file with a mark, a header and a slip, which ends within its last line. -/
def headedSource : String :=
  "\uFEFF# top\n@\x7b import 'a';\n\x7d\n(brand) = 'El\\zii' # kept"

/-- A file with the reference directive and a slip. -/
def referenceSource : String :=
  "@default # here\ntitle = \"\x7b@brand\x7d \x7d\""

def headedDraft : Draft where
  document :=
    { header := some "import 'a';"
      definitions := [⟨"brand", .hidden, [.text "Elii"], ∅, ⟨4, 1⟩⟩] }
  slips := [⟨.unknownEscape 'z', ⟨4, 14⟩⟩]

def referenceDraft : Draft where
  document :=
    { directives := [.reference]
      definitions := [⟨"title", .exposed, [.reference "brand", .text " "], ∅, ⟨2, 1⟩⟩] }
  slips := [⟨.unmatchedBrace, ⟨2, 19⟩⟩]

theorem read_append_headed :
    Document.read headedSource = .ok headedDraft ∧
    Document.read referenceSource = .ok referenceDraft ∧
    Document.read (headedSource ++ "\n" ++ referenceSource) = .ok
      { document :=
          { header := some "import 'a';"
            directives := [.reference]
            definitions := [⟨"brand", .hidden, [.text "Elii"], ∅, ⟨4, 1⟩⟩,
              ⟨"title", .exposed, [.reference "brand", .text " "], ∅, ⟨6, 1⟩⟩] }
        slips := [⟨.unknownEscape 'z', ⟨4, 14⟩⟩, ⟨.unmatchedBrace, ⟨6, 19⟩⟩] } := by
  have hheaded : Document.read headedSource = .ok headedDraft := by
    decide +kernel
  have hreference : Document.read referenceSource = .ok referenceDraft := by
    decide +kernel
  refine ⟨hheaded, hreference, (read_append hheaded hreference ?_ (Or.inr rfl) ?_).trans ?_⟩
  · decide +kernel
  · exact Or.inl (by decide)
  · decide +kernel

end Polyglot
