import Polyglot.Proofs.Rereading

/-!
# Where reading can come to

Within a statement, reading goes on character by character and never stops right after a line feed. So
each place that it notes, for a statement, a slip or a fault, is before a character of the text or at
the end of a line that has characters.

* `Cursor.Moves`, `Cursor.Sees`: the cursors and places that reading within a statement can come to;
* `Read.Stays`: all that a reading notes is seen from where it began, with `statement_stays` for one
  statement;
* `Position.Within`, `read_within`: the places that are noted for a source text.
-/

namespace Polyglot

namespace Cursor

/-- Reading on leads from one cursor to the other, and the last character passed is no line feed. -/
def Moves (cur next : Cursor) : Prop :=
  ∃ taken, cur.rest = taken ++ next.rest ∧ next.position = cur.position.afterAll taken ∧
    taken.getLast? ≠ some '\n'

/-- A place that reading from the cursor can come to. -/
def Sees (cur : Cursor) (p : Position) : Prop :=
  ∃ next, cur.Moves next ∧ next.position = p

lemma Moves.refl (cur : Cursor) : cur.Moves cur :=
  ⟨[], rfl, rfl, by simp⟩

lemma Moves.trans {a b c : Cursor} (h : a.Moves b) (h' : b.Moves c) : a.Moves c := by
  obtain ⟨first, hrest, hpos, hlast⟩ := h
  obtain ⟨second, hrest', hpos', hlast'⟩ := h'
  refine ⟨first ++ second, ?_, ?_, ?_⟩
  · rw [hrest, hrest', List.append_assoc]
  · rw [hpos', hpos, afterAll_append]
  · rw [List.getLast?_append]
    cases hsecond : second.getLast? with
    | none => simpa using hlast
    | some c => rwa [hsecond] at hlast'

lemma Moves.sees {a b : Cursor} (h : a.Moves b) {p : Position} (hp : b.Sees p) : a.Sees p := by
  obtain ⟨next, hnext, rfl⟩ := hp
  exact ⟨next, h.trans hnext, rfl⟩

lemma Moves.sees_position {a b : Cursor} (h : a.Moves b) : a.Sees b.position :=
  ⟨b, h, rfl⟩

/-- The place of the end of the text stays the same. -/
lemma Moves.afterAll_rest {a b : Cursor} (h : a.Moves b) :
    b.position.afterAll b.rest = a.position.afterAll a.rest := by
  obtain ⟨taken, hrest, hpos, -⟩ := h
  rw [hrest, hpos, afterAll_append]

/-! ### The moves -/

lemma moves_of_not_mem {cur next : Cursor} (taken : List Char) (hrest : cur.rest = taken ++ next.rest)
    (hpos : next.position = cur.position.afterAll taken) (hline : '\n' ∉ taken) : cur.Moves next :=
  ⟨taken, hrest, hpos, fun h => hline (List.mem_of_getLast? h)⟩

lemma moves_cons {cur : Cursor} {c : Char} {cs : List Char} (hrest : cur.rest = c :: cs)
    (hc : c ≠ '\n') : cur.Moves ⟨cs, cur.position.after c⟩ :=
  moves_of_not_mem [c] hrest rfl (by simpa using hc.symm)

lemma moves_span {p : Char → Bool} (hp : p '\n' = false) (cur : Cursor) :
    cur.Moves (cur.span p).2 := by
  refine moves_of_not_mem _ List.takeWhile_append_dropWhile.symm rfl fun hmem => ?_
  have hline := List.all_eq_true.1 List.all_takeWhile _ hmem
  rw [hp] at hline
  cases hline

lemma moves_skipInline (cur : Cursor) : cur.Moves cur.skipInline :=
  moves_span (by decide) cur

lemma moves_skipLine (cur : Cursor) : cur.Moves cur.skipLine :=
  moves_span (by decide) cur

lemma moves_eat {c : Char} (hc : c ≠ '\n') {cur next : Cursor} (h : cur.eat c = some next) :
    cur.Moves next := by
  obtain ⟨hrest, hpos⟩ := eat_eq_some_iff.1 h
  exact moves_of_not_mem [c] hrest hpos (by simpa using hc.symm)

lemma moves_identifier {cur next : Cursor} {name : String}
    (h : cur.identifier = some (name, next)) : cur.Moves next := by
  obtain ⟨-, hspan⟩ := identifier_eq_some_iff.1 h
  obtain rfl : (cur.span isIdentifierPart).2 = next := congrArg Prod.snd hspan
  exact moves_span (by decide) cur

lemma moves_code {multiline : Bool} {cur next : Cursor} {code : List Char}
    (h : cur.code multiline = some (code, next)) : cur.Moves next := by
  obtain ⟨r, hr, he⟩ := Option.map_eq_some_iff.1 h
  cases he
  refine ⟨r.1 ++ ['}'], ?_, rfl, by simp⟩
  rw [closeBrace_splits hr]
  simp

end Cursor

namespace Read

/-- However a reading ends, the place where it ends and those of its slips are seen from `cur`. -/
def Stays {α : Type} (cur : Cursor) (slips : α → List (At Slip)) : Read α → Prop
  | .ok r => cur.Moves r.2 ∧ ∀ s ∈ slips r.1, cur.Sees s.position
  | .error e => cur.Sees e.position

/-- Nothing can slip here. -/
def noSlips {α : Type} (_ : α) : List (At Slip) := []

section

variable {α β : Type} {cur mid : Cursor} {slips : α → List (At Slip)}

lemma stays_fail (h : cur.Moves mid) (e : SyntaxError) :
    Stays cur slips (fail e mid.position) :=
  h.sees_position

lemma Stays.of_moves (h : cur.Moves mid) {x : Read α} (hx : Stays mid slips x) :
    Stays cur slips x := by
  cases x with
  | error e => exact h.sees hx
  | ok r => exact ⟨h.trans hx.1, fun s hs => h.sees (hx.2 s hs)⟩

lemma Stays.map {x : Read α} (hx : Stays cur slips x) {more : β → List (At Slip)} {f : α → β}
    (hf : ∀ a, ∀ s ∈ more (f a), s ∈ slips a ∨ cur.Sees s.position) :
    Stays cur more (x.map (fun r => (f r.1, r.2))) := by
  cases x with
  | error e => exact hx
  | ok r =>
    refine ⟨hx.1, fun s hs => ?_⟩
    rcases hf r.1 s hs with h | h
    · exact hx.2 s h
    · exact h

end

/-! ### Between braces -/

lemma reference_stays (cur : Cursor) : Stays cur Text.slips (reference cur) := by
  unfold reference
  split
  · exact stays_fail (.refl cur) _
  · rename_i name mid hid
    have hmid := (Cursor.moves_identifier hid).trans (Cursor.moves_skipInline mid)
    split
    · exact stays_fail hmid _
    · rename_i next hnext
      refine ⟨hmid.trans (Cursor.moves_eat (by decide) hnext), fun s hs => ?_⟩
      cases hs

lemma format_stays (name : String) (cur : Cursor) : Stays cur noSlips (format name cur) := by
  unfold format
  split
  · exact stays_fail (.refl cur) _
  · rename_i hcode
    split
    · exact stays_fail (.refl cur) _
    · exact ⟨Cursor.moves_code hcode, fun s hs => by cases hs⟩

lemma parameterEnd_stays (name : String) (cur : Cursor) :
    Stays cur noSlips (parameterEnd name cur) := by
  unfold parameterEnd
  split
  · exact stays_fail (.refl cur) _
  · rename_i c cs hrest
    have hformat : c ≠ '\n' → ∀ f : String → Option WrittenFormat,
        Stays cur noSlips
          ((format name ⟨cs, cur.position.after c⟩).map (fun r => (f r.1, r.2))) := by
      intro hc f
      refine Stays.map (.of_moves (Cursor.moves_cons hrest hc) (format_stays name _)) ?_
      intro a s hs
      cases hs
    simp only
    split
    · rename_i hc
      exact ⟨Cursor.moves_cons hrest (by simp [hc]), fun s hs => by cases hs⟩
    · split
      · rename_i hc
        exact hformat (by simp [hc]) fun code => some (.explicit code)
      · split
        · rename_i hc
          exact hformat (by simp [hc]) fun code => some (.shorthand code)
        · exact stays_fail (.refl cur) _

lemma position_of_mem_nameSlips {name : String} {p : Position} {s : At Slip}
    (h : s ∈ nameSlips name p) : s.position = p := by
  unfold nameSlips at h
  split at h
  · rw [List.mem_singleton.1 h]
  · cases h

lemma parameter_stays (cur : Cursor) : Stays cur Text.slips (parameter cur) := by
  unfold parameter
  split
  · exact stays_fail (.refl cur) _
  · rename_i name next hid
    have hnext := (Cursor.moves_identifier hid).trans (Cursor.moves_skipInline next)
    refine Stays.map (f := fun format => (⟨[.parameter name format], nameSlips name cur.position⟩ : Text))
      (.of_moves hnext (parameterEnd_stays name _)) ?_
    intro a s hs
    rw [position_of_mem_nameSlips hs]
    exact Or.inr (Cursor.Moves.refl cur).sees_position

lemma placeholder_stays (cur : Cursor) : Stays cur Text.slips (placeholder cur) := by
  have hskip := Cursor.moves_skipInline cur
  unfold placeholder
  split
  · rename_i next hnext
    exact .of_moves (hskip.trans (Cursor.moves_eat (by decide) hnext)) (reference_stays next)
  · exact .of_moves hskip (parameter_stays _)

/-! ### A text -/

/-- The slips of what one step has found. -/
def foundSlips (found : Option Text) : List (At Slip) :=
  (found.map Text.slips).getD []

lemma position_of_mem_escaped {c : Char} {p : Position} {s : At Slip}
    (h : s ∈ (escaped c p).slips) : s.position = p := by
  unfold escaped at h
  split at h
  · cases h
  · rw [List.mem_singleton.1 h]

/-- A step stays where its text was opened. -/
lemma textStep_stays (quote : Char) {opened cur : Cursor} (h : opened.Moves cur) (hquote : quote ≠ '\n') :
    Stays opened foundSlips (textStep quote opened.position cur) := by
  have hnone : ∀ (p : Piece) (next : Cursor), opened.Moves next →
      Stays opened foundSlips (.ok (some (.ofPiece p), next)) :=
    fun p next hnext => ⟨hnext, fun s hs => by cases hs⟩
  unfold textStep
  split
  · exact stays_fail (.refl opened) _
  · rename_i c cs hrest
    simp only
    split
    · rename_i hc
      exact ⟨h.trans (Cursor.moves_cons hrest (hc ▸ hquote)), fun s hs => by cases hs⟩
    split
    · exact stays_fail (.refl opened) _
    rename_i hline
    have hnext := h.trans (Cursor.moves_cons hrest hline)
    split
    · split
      · exact stays_fail (.refl opened) _
      · rename_i e es
        split
        · exact stays_fail (.refl opened) _
        · rename_i he
          refine ⟨hnext.trans (Cursor.moves_cons rfl he), fun s hs => ?_⟩
          rw [position_of_mem_escaped hs]
          exact h.sees_position
    split
    · split
      · rename_i after hafter
        exact hnone _ _ (hnext.trans (Cursor.moves_eat (by decide) hafter))
      · exact Stays.map (f := some) (.of_moves hnext (placeholder_stays _)) fun a s hs => Or.inl hs
    split
    · split
      · rename_i after hafter
        exact hnone _ _ (hnext.trans (Cursor.moves_eat (by decide) hafter))
      · refine ⟨hnext, fun s hs => ?_⟩
        rw [List.mem_singleton.1 hs]
        exact h.sees_position
    · exact hnone _ _ hnext

theorem textBody_stays (quote : Char) (hquote : quote ≠ '\n') {opened cur : Cursor}
    (h : opened.Moves cur) : Stays opened Text.slips (textBody quote opened.position cur) := by
  have hstep := textStep_stays quote h hquote
  fun_induction textBody quote opened.position cur with
  | case1 cur e hs =>
    rw [hs] at hstep
    exact hstep
  | case2 cur next hs =>
    rw [hs] at hstep
    exact ⟨hstep.1, fun s hs => by cases hs⟩
  | case3 cur found next hs ih =>
    rw [hs] at hstep
    refine Stays.map (ih hstep.1 (textStep_stays quote hstep.1 hquote)) fun a s hs => ?_
    rcases List.mem_append.1 hs with hs | hs
    · exact Or.inr (hstep.2 s hs)
    · exact Or.inl hs

lemma text_stays (cur : Cursor) : Stays cur Text.slips (text cur) := by
  unfold text
  split
  · exact stays_fail (.refl cur) _
  · rename_i c cs hrest
    split
    · rename_i hc
      have hline : c ≠ '\n' := by
        rintro rfl
        revert hc
        decide
      exact textBody_stays c hline (Cursor.moves_cons hrest hline)
    · exact stays_fail (.refl cur) _

end Read

/-! ### A statement -/

/-- The slips that come with a statement. -/
def Statement.slips : Statement → List (At Slip)
  | message _ _ text => text.slips
  | _ => []

namespace Read

lemma lineEnd_stays {α : Type} {slips : α → List (At Slip)} (fault : Char → SyntaxError)
    {opened cur : Cursor} (h : opened.Moves cur) {a : α}
    (ha : ∀ s ∈ slips a, opened.Sees s.position) :
    Stays opened slips ((lineEnd fault cur).map (fun next => (a, next))) := by
  have hskip := h.trans (Cursor.moves_skipInline cur)
  unfold lineEnd
  simp only
  split
  · exact ⟨hskip, ha⟩
  · split
    · exact ⟨hskip, ha⟩
    · split
      · exact ⟨hskip.trans (Cursor.moves_skipLine _), ha⟩
      · exact stays_fail hskip _

lemma header_stays (seen : Bool) {opened cur : Cursor} (h : opened.Moves cur) :
    Stays opened Statement.slips (header seen opened.position cur) := by
  unfold header
  split
  · exact stays_fail (.refl opened) _
  · rename_i hcode
    split
    · exact stays_fail (.refl opened) _
    · exact lineEnd_stays _ (h.trans (Cursor.moves_code hcode)) fun s hs => by cases hs

lemma directive_stays (cur : Cursor) : Stays cur Statement.slips (directive cur) := by
  unfold directive
  split
  · exact stays_fail (.refl cur) _
  · rename_i next hid
    exact ⟨(Cursor.moves_identifier hid).trans (Cursor.moves_skipLine _), fun s hs => by cases hs⟩

lemma key_stays (cur : Cursor) : Stays cur noSlips (key cur) := by
  unfold key
  split
  · rename_i next hparen
    have hstart := (Cursor.moves_eat (by decide) hparen).trans (Cursor.moves_skipInline next)
    simp only
    split
    · exact stays_fail hstart _
    · rename_i after hid
      have hafter := hstart.trans ((Cursor.moves_identifier hid).trans (Cursor.moves_skipInline after))
      split
      · exact stays_fail hafter _
      · rename_i hclose
        exact ⟨hafter.trans (Cursor.moves_eat (by decide) hclose), fun s hs => by cases hs⟩
  · split
    · exact stays_fail (.refl cur) _
    · rename_i hid
      exact ⟨Cursor.moves_identifier hid, fun s hs => by cases hs⟩

lemma message_stays (cur : Cursor) : Stays cur Statement.slips (message cur) := by
  have hkey := key_stays cur
  unfold message
  split
  · rename_i e he
    rw [he] at hkey
    exact hkey
  · rename_i name visibility next hk
    rw [hk] at hkey
    have hnext := hkey.1.trans (Cursor.moves_skipInline next)
    split
    · exact stays_fail hnext _
    · rename_i after heq
      have hafter := hnext.trans
        ((Cursor.moves_eat (by decide) heq).trans (Cursor.moves_skipInline after))
      have htext := Stays.of_moves hafter (text_stays after.skipInline)
      split
      · rename_i e he
        rw [he] at htext
        exact htext
      · rename_i text last ht
        rw [ht] at htext
        exact lineEnd_stays _ htext.1 htext.2

/-- **One statement stays where it begins.** -/
theorem statement_stays (seen : Bool) {cur : Cursor} {c : Char} {cs : List Char}
    (hrest : cur.rest = c :: cs) :
    Stays cur Statement.slips (statement seen cur c ⟨cs, cur.position.after c⟩) := by
  unfold statement
  split
  · rename_i hc
    have hnext := Cursor.moves_cons hrest (by simp [hc])
    exact ⟨hnext.trans (Cursor.moves_skipLine _), fun s hs => by cases hs⟩
  · split
    · rename_i hc
      have hnext := Cursor.moves_cons hrest (by simp [hc])
      split
      · rename_i hopen
        exact header_stays seen (hnext.trans (Cursor.moves_eat (by decide) hopen))
      · exact .of_moves hnext (directive_stays _)
    · split
      · exact message_stays cur
      · exact stays_fail (.refl cur) _

end Read

/-! ### A source text -/

/-- The place is before a character of the text, or at the end of a line that has characters. -/
def Position.Within (text : List Char) (p : Position) : Prop :=
  ∃ before after, text = before ++ after ∧ p = Position.start.afterAll before ∧
    (after = [] → ∃ c, before.getLast? = some c ∧ c ≠ '\n')

/-- The cursor is in the course of reading the text. -/
def Cursor.In (text : List Char) (cur : Cursor) : Prop :=
  ∃ before, text = before ++ cur.rest ∧ cur.position = Position.start.afterAll before

lemma Cursor.In.skip {text : List Char} {cur : Cursor} (h : cur.In text) (p : Char → Bool) :
    (cur.skip p).In text := by
  obtain ⟨before, htext, hpos⟩ := h
  refine ⟨before ++ cur.rest.takeWhile p, ?_, ?_⟩
  · rw [htext, List.append_assoc]
    exact congrArg _ List.takeWhile_append_dropWhile.symm
  · rw [afterAll_append, ← hpos]
    rfl

lemma Cursor.In.moves {text : List Char} {cur next : Cursor} (h : cur.In text) (hm : cur.Moves next) :
    next.In text := by
  obtain ⟨before, htext, hpos⟩ := h
  obtain ⟨taken, hrest, hnext, -⟩ := hm
  exact ⟨before ++ taken, by rw [htext, hrest, List.append_assoc],
    by rw [hnext, hpos, afterAll_append]⟩

/-- What is seen from a character of the text is a place within it. -/
lemma Cursor.In.within {text : List Char} {cur : Cursor} (h : cur.In text) (hrest : cur.rest ≠ [])
    {p : Position} (hp : cur.Sees p) : p.Within text := by
  obtain ⟨before, htext, hpos⟩ := h
  obtain ⟨next, ⟨taken, htaken, hnext, hlast⟩, rfl⟩ := hp
  refine ⟨before ++ taken, next.rest, ?_, ?_, fun hend => ?_⟩
  · rw [htext, htaken, List.append_assoc]
  · rw [hnext, hpos, afterAll_append]
  · -- all that was left has been passed, so its last character is the one before the place
    rw [hend, List.append_nil] at htaken
    rw [htaken] at hrest
    have hgiven := List.getLast?_eq_some_getLast hrest
    refine ⟨taken.getLast hrest, ?_, fun hc => hlast (hgiven.trans (congrArg some hc))⟩
    rw [List.getLast?_append, hgiven]
    rfl

namespace Read

/-- The places of statements, of their slips and of a fault are within the text. -/
theorem statements_within {text : List Char} (seen : Bool) {cur : Cursor} (h : cur.In text) :
    (∀ ss, statements seen cur = .ok ss → ∀ s ∈ ss, s.position.Within text ∧
      ∀ slip ∈ s.value.slips, slip.position.Within text) ∧
    ∀ e, statements seen cur = .error e → e.position.Within text := by
  fun_induction statements seen cur with
  | case1 seen cur hrest =>
    refine ⟨fun ss hss => ?_, fun e he => by cases he⟩
    cases hss
    intro s hs
    cases hs
  | case2 seen cur c cs hrest here e hs =>
    have hin : here.In text := h.skip isBlank
    have hne : here.rest ≠ [] := by simp [here, hrest]
    refine ⟨fun ss hss => (by cases hss), fun e' he => ?_⟩
    cases he
    have hstays := statement_stays seen hrest
    rw [hs] at hstays
    exact hin.within hne hstays
  | case3 seen cur c cs hrest here s next hs ih =>
    have hin : here.In text := h.skip isBlank
    have hne : here.rest ≠ [] := by simp [here, hrest]
    have hstays := statement_stays seen hrest
    rw [hs] at hstays
    obtain ⟨ihok, iherr⟩ := ih (hin.moves hstays.1)
    constructor
    · intro ss hss
      obtain ⟨rest, hrest', rfl⟩ := map_eq_ok_iff.1 hss
      intro t ht
      rcases List.mem_cons.1 ht with rfl | ht
      · exact ⟨hin.within hne (Cursor.Moves.refl here).sees_position,
          fun slip hslip => hin.within hne (hstays.2 slip hslip)⟩
      · exact ihok rest hrest' t ht
    · intro e he
      cases hrest' : statements (seen || s.isHeader) next with
      | ok rest =>
        rw [hrest'] at he
        cases he
      | error e' =>
        rw [hrest'] at he
        cases he
        exact iherr e hrest'

end Read

/-- The places in a draft are within the text. -/
structure Draft.Within (text : List Char) (d : Draft) : Prop where
  slips : ∀ s ∈ d.slips, s.position.Within text
  definitions : ∀ m ∈ d.document.definitions, m.position.Within text

lemma Draft.Within.add {text : List Char} {d : Draft} (h : d.Within text) {s : At Statement}
    (hs : s.position.Within text) (hslips : ∀ slip ∈ s.value.slips, slip.position.Within text) :
    (d.add s).Within text := by
  obtain ⟨value, position⟩ := s
  cases value with
  | comment => exact h
  | header code => exact ⟨h.slips, h.definitions⟩
  | directive name args =>
    unfold Draft.add Draft.addDirective
    simp only
    split
    · exact ⟨h.slips, h.definitions⟩
    · refine ⟨fun slip hslip => ?_, h.definitions⟩
      rcases List.mem_append.1 hslip with hslip | hslip
      · exact h.slips slip hslip
      · rw [List.mem_singleton.1 hslip]
        exact hs
  | message key visibility t =>
    constructor
    · intro slip hslip
      rcases List.mem_append.1 hslip with hslip | hslip
      · exact h.slips slip hslip
      · exact hslips slip hslip
    · intro m hm
      rcases List.mem_append.1 hm with hm | hm
      · exact h.definitions m hm
      · rw [List.mem_singleton.1 hm]
        exact hs

/-- **All places that reading notes are within the text**, without its mark. -/
theorem read_within (source : String) :
    (∀ draft, Document.read source = .ok draft → draft.Within (dropMark source.toList)) ∧
    ∀ e, Document.read source = .error e → e.position.Within (dropMark source.toList) := by
  have hin : (Cursor.ofText (dropMark source.toList)).In (dropMark source.toList) := ⟨[], rfl, rfl⟩
  obtain ⟨hok, herr⟩ := Read.statements_within false hin
  constructor
  · intro draft h
    obtain ⟨ss, hss, rfl⟩ := map_eq_ok_iff.1 h
    refine List.foldlRecOn ss Draft.add ?_ fun d hd s hs => ?_
    · exact ⟨fun s hs => (by cases hs), fun m hm => (by cases hm)⟩
    · exact hd.add (hok ss hss s hs).1 (hok ss hss s hs).2
  · intro e h
    unfold Document.read at h
    cases hss : Read.statements false (.ofText (dropMark source.toList)) with
    | ok ss =>
      rw [hss] at h
      cases h
    | error e' =>
      rw [hss] at h
      cases h
      exact herr e hss

end Polyglot
