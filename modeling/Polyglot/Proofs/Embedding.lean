import Polyglot.Proofs.CursorMoves
import Mathlib.Data.List.TakeWhile

/-!
# Reading in the midst of a longer text

Nothing that a statement says depends on what stands after its line, or on how far down the line is: only
the places that are noted move down with it.

* `Position.down`: the place some lines further down, and the same for all that has places;
* `Cursor.embed`: a cursor that stands further down, with more text to come;
* `statement_embed`: what becomes of one statement, put together from what becomes of its parts;
* `statements_embed`: what becomes of all statements of a text.
-/

namespace Polyglot

/-! ### Further down -/

/-- The place `k` lines further down. -/
def Position.down (k : Nat) (p : Position) : Position :=
  ⟨p.line + k, p.column⟩

/-- The same value `k` lines further down. -/
def At.down {α : Type} (k : Nat) (a : At α) : At α :=
  ⟨a.value, a.position.down k⟩

def Text.down (k : Nat) (t : Text) : Text :=
  ⟨t.pieces, t.slips.map (At.down k)⟩

def Statement.down (k : Nat) : Statement → Statement
  | message key visibility text => message key visibility (text.down k)
  | s => s

/-- A statement with all its places `k` lines further down. -/
def At.moveDown (k : Nat) (s : At Statement) : At Statement :=
  ⟨s.value.down k, s.position.down k⟩

lemma down_after (k : Nat) (p : Position) (c : Char) : (p.after c).down k = (p.down k).after c := by
  unfold Position.after
  split
  · simp [Position.down, Nat.add_right_comm]
  · rfl

lemma down_afterAll (k : Nat) (p : Position) (cs : List Char) :
    (p.afterAll cs).down k = (p.down k).afterAll cs := by
  induction cs generalizing p with
  | nil => rfl
  | cons c cs ih => rw [afterAll_cons, afterAll_cons, ih, down_after]

lemma moveDown_zero (s : At Statement) : s.moveDown 0 = s := by
  obtain ⟨value, p⟩ := s
  have hslips : ∀ slips : List (At Slip), slips.map (At.down 0) = slips := List.map_id
  cases value with
  | message key visibility text => simp [At.moveDown, Statement.down, Text.down, hslips, Position.down]
  | _ => rfl

lemma line_afterAll (p : Position) (cs : List Char) :
    (p.afterAll cs).line = p.line + cs.count '\n' := by
  induction cs generalizing p with
  | nil => rfl
  | cons c cs ih =>
    rw [afterAll_cons, ih, Position.after]
    by_cases hc : c = '\n'
    · rw [if_pos hc, hc, List.count_cons_self]
      exact Nat.add_right_comm ..
    · rw [if_neg hc, List.count_cons_of_ne hc]

lemma down_escaped (k : Nat) (c : Char) (p : Position) :
    (Read.escaped c p).down k = Read.escaped c (p.down k) := by
  unfold Read.escaped
  split <;> rfl

lemma down_before (k : Nat) (first t : Text) :
    (first.before t).down k = (first.down k).before (t.down k) := by
  simp [Text.before, Text.down]

lemma isHeader_down (k : Nat) (s : Statement) : (s.down k).isHeader = s.isHeader := by
  cases s <;> rfl

/-! ### More text to come -/

namespace Cursor

/-- The cursor `k` lines further down, with more text after what it has left to read. -/
def embed (k : Nat) (tail : List Char) (cur : Cursor) : Cursor :=
  ⟨cur.rest ++ tail, cur.position.down k⟩

/-- The text ends here, or its line does. -/
def EndsLine (tail : List Char) : Prop :=
  ∀ c ∈ tail.head?, c = '\n'

lemma endsLine_nil : EndsLine [] := by
  intro c hc
  cases hc

lemma endsLine_cons (cs : List Char) : EndsLine ('\n' :: cs) := by
  intro c hc
  exact (Option.some.inj hc).symm

section

variable {k : Nat} {tail : List Char} (htail : EndsLine tail)

include htail

lemma takeWhile_embed {p : Char → Bool} (hp : p '\n' = false) (cs : List Char) :
    (cs ++ tail).takeWhile p = cs.takeWhile p ∧ (cs ++ tail).dropWhile p = cs.dropWhile p ++ tail := by
  induction cs with
  | nil =>
    cases tail with
    | nil => exact ⟨rfl, rfl⟩
    | cons c cs =>
      obtain rfl := htail c rfl
      simp [hp]
  | cons c cs ih =>
    rw [List.cons_append, List.takeWhile_cons, List.takeWhile_cons, List.dropWhile_cons,
      List.dropWhile_cons, ih.1, ih.2]
    split
    · exact ⟨rfl, rfl⟩
    · exact ⟨rfl, rfl⟩

lemma span_embed {p : Char → Bool} (hp : p '\n' = false) (cur : Cursor) :
    (cur.embed k tail).span p = ((cur.span p).1, (cur.span p).2.embed k tail) := by
  obtain ⟨htake, hdrop⟩ := takeWhile_embed htail hp cur.rest
  simp only [span, embed, htake, hdrop, down_afterAll]

lemma skipInline_embed (cur : Cursor) :
    (cur.embed k tail).skipInline = cur.skipInline.embed k tail :=
  congrArg Prod.snd (span_embed htail (by decide) cur)

lemma skipLine_embed (cur : Cursor) : (cur.embed k tail).skipLine = cur.skipLine.embed k tail :=
  congrArg Prod.snd (span_embed htail (by decide) cur)

lemma eat_embed_eq_none {c : Char} (hc : c ≠ '\n') {cur : Cursor} (h : cur.eat c = none) :
    (cur.embed k tail).eat c = none := by
  rw [eat_eq_none_iff] at h ⊢
  cases hrest : cur.rest with
  | nil =>
    intro hhead
    rw [embed, hrest, List.nil_append] at hhead
    exact hc (htail c hhead)
  | cons d ds => rwa [embed, hrest, List.cons_append, List.head?_cons, ← List.head?_cons, ← hrest]

lemma identifier_embed {cur next : Cursor} {name : String} (h : cur.identifier = some (name, next)) :
    (cur.embed k tail).identifier = some (name, next.embed k tail) := by
  obtain ⟨⟨c, cs, hrest, hc⟩, hspan⟩ := identifier_eq_some_iff.1 h
  refine identifier_eq_some_iff.2 ⟨⟨c, cs ++ tail, by simp [embed, hrest], hc⟩, ?_⟩
  rw [span_embed htail (by decide), hspan]

end

lemma eat_embed {c : Char} {cur next : Cursor} (h : cur.eat c = some next) (k : Nat)
    (tail : List Char) : (cur.embed k tail).eat c = some (next.embed k tail) := by
  obtain ⟨hrest, hpos⟩ := eat_eq_some_iff.1 h
  refine eat_eq_some_iff.2 ⟨?_, ?_⟩
  · rw [embed, hrest]
    rfl
  · exact (congrArg (Position.down k) hpos).trans (down_after k cur.position c)

lemma skip_embed_of_cons {p : Char → Bool} {cur : Cursor} {c : Char} {cs : List Char}
    (h : (cur.skip p).rest = c :: cs) {k : Nat} {tail : List Char} :
    (cur.embed k tail).skip p = (cur.skip p).embed k tail := by
  have hdrop : cur.rest.dropWhile p = c :: cs := h
  have htake : (cur.rest.takeWhile p).length ≠ cur.rest.length := by
    intro hlength
    have := congrArg List.length (List.takeWhile_append_dropWhile (p := p) (l := cur.rest))
    rw [List.length_append, hdrop, List.length_cons] at this
    omega
  simp only [skip, span, embed, List.takeWhile_append, List.dropWhile_append, if_neg htake, hdrop,
    List.isEmpty_cons, Bool.false_eq_true, if_false, down_afterAll]

lemma skip_embed_of_nil {p : Char → Bool} {cur : Cursor} (h : (cur.skip p).rest = []) (k : Nat)
    (tail : List Char) :
    (cur.embed k tail).skip p = skip p ⟨tail, (cur.position.afterAll cur.rest).down k⟩ := by
  have hall : ∀ c ∈ cur.rest, p c = true := List.dropWhile_eq_nil_iff.1 h
  simp only [skip, span, embed, List.takeWhile_append_of_pos hall, List.dropWhile_append_of_pos hall,
    down_afterAll, afterAll_append]

lemma afterAll_skip (cur : Cursor) (p : Char → Bool) :
    (cur.skip p).position.afterAll (cur.skip p).rest = cur.position.afterAll cur.rest := by
  show (cur.position.afterAll (cur.rest.takeWhile p)).afterAll (cur.rest.dropWhile p) = _
  rw [← afterAll_append, List.takeWhile_append_dropWhile]

lemma closeBrace_append {multiline : Bool} {depth : Nat} {cs : List Char}
    {r : List Char × List Char} (h : closeBrace multiline depth cs = some r) (tail : List Char) :
    closeBrace multiline depth (cs ++ tail) = some (r.1, r.2 ++ tail) := by
  induction cs generalizing depth r with
  | nil => simp [closeBrace] at h
  | cons c cs ih =>
    have hpass : ∀ {depth : Nat}, (closeBrace multiline depth cs).map (fun r => (c :: r.1, r.2)) =
        some r → (closeBrace multiline depth (cs ++ tail)).map (fun r => (c :: r.1, r.2)) =
          some (r.1, r.2 ++ tail) := by
      intro depth h
      obtain ⟨s, hs, rfl⟩ := Option.map_eq_some_iff.1 h
      rw [ih hs]
      rfl
    rw [List.cons_append]
    unfold closeBrace at h ⊢
    split at h
    · cases h
    rename_i hline
    rw [if_neg hline]
    split at h
    · rename_i hopen
      rw [if_pos hopen]
      exact hpass h
    rename_i hopen
    rw [if_neg hopen]
    split at h
    · rename_i hclose
      rw [if_pos hclose]
      split at h
      · cases h
        rfl
      · exact hpass h
    · rename_i hclose
      rw [if_neg hclose]
      exact hpass h

lemma code_embed {multiline : Bool} {cur next : Cursor} {code : List Char}
    (h : cur.code multiline = some (code, next)) (k : Nat) (tail : List Char) :
    (cur.embed k tail).code multiline = some (code, next.embed k tail) := by
  obtain ⟨r, hr, he⟩ := Option.map_eq_some_iff.1 h
  cases he
  simp only [Cursor.code, embed, closeBrace_append hr, Option.map_some, down_afterAll]

end Cursor

/-! ### What is read in the midst of a longer text -/

namespace Read

open Cursor

lemma format_embed {name code : String} {cur next : Cursor} (h : format name cur = .ok (code, next))
    (k : Nat) (tail : List Char) :
    format name (cur.embed k tail) = .ok (code, next.embed k tail) := by
  obtain ⟨written, hcode, htrim, hname⟩ := format_eq_ok_iff.1 h
  exact format_eq_ok_iff.2 ⟨written, code_embed hcode k tail, htrim, hname⟩

lemma parameterEnd_embed {name : String} {cur next : Cursor} {found : Option WrittenFormat}
    (h : parameterEnd name cur = .ok (found, next)) (k : Nat) (tail : List Char) :
    parameterEnd name (cur.embed k tail) = .ok (found, next.embed k tail) := by
  refine parameterEnd_eq_ok_iff.2 ?_
  rcases parameterEnd_eq_ok_iff.1 h with ⟨heat, hnone⟩ | ⟨after, code, hformat, hmark⟩
  · exact .inl ⟨eat_embed heat k tail, hnone⟩
  · refine .inr ⟨after.embed k tail, code, format_embed hformat k tail, ?_⟩
    exact hmark.imp (And.imp_left (eat_embed · k tail)) (And.imp_left (eat_embed · k tail))

lemma down_nameSlips (k : Nat) (name : String) (p : Position) :
    (nameSlips name p).map (At.down k) = nameSlips name (p.down k) := by
  unfold nameSlips
  split <;> rfl

section

variable {k : Nat} {tail : List Char} (htail : EndsLine tail)

include htail

lemma reference_embed {cur next : Cursor} {found : Text} (h : reference cur = .ok (found, next)) :
    reference (cur.embed k tail) = .ok (found.down k, next.embed k tail) := by
  obtain ⟨name, after, hid, hclose, rfl⟩ := reference_eq_ok_iff.1 h
  refine reference_eq_ok_iff.2 ⟨name, after.embed k tail, identifier_embed htail hid, ?_, rfl⟩
  rw [skipInline_embed htail]
  exact eat_embed hclose k tail

lemma parameter_embed {cur next : Cursor} {found : Text} (h : parameter cur = .ok (found, next)) :
    parameter (cur.embed k tail) = .ok (found.down k, next.embed k tail) := by
  obtain ⟨name, after, format, hid, hend, rfl⟩ := parameter_eq_ok_iff.1 h
  refine parameter_eq_ok_iff.2
    ⟨name, after.embed k tail, format, identifier_embed htail hid, ?_, ?_⟩
  · rw [skipInline_embed htail]
    exact parameterEnd_embed hend k tail
  · rw [Text.down, down_nameSlips]
    rfl

lemma placeholder_embed {cur next : Cursor} {found : Text} (h : placeholder cur = .ok (found, next)) :
    placeholder (cur.embed k tail) = .ok (found.down k, next.embed k tail) := by
  rw [placeholder_eq_ok_iff, skipInline_embed htail]
  rcases placeholder_eq_ok_iff.1 h with ⟨after, heat, href⟩ | ⟨hnone, hparam⟩
  · exact .inl ⟨after.embed k tail, eat_embed heat k tail, reference_embed htail href⟩
  · exact .inr ⟨eat_embed_eq_none htail (by decide) hnone, parameter_embed htail hparam⟩

/-- A step does not ask where the text was opened, unless it fails. -/
lemma textStep_embed {quote : Char} {start : Position} {cur next : Cursor} {found : Option Text}
    (h : textStep quote start cur = .ok (found, next)) (start' : Position) :
    textStep quote start' (cur.embed k tail) = .ok (found.map (Text.down k), next.embed k tail) := by
  rw [textStep_eq_ok_iff] at h ⊢
  cases h with
  | closed heat => exact .closed (eat_embed heat k tail)
  | escape hquote hline heat hescaped =>
    rw [Option.map_some, down_escaped]
    exact .escape hquote hline (eat_embed heat k tail) (eat_embed hescaped k tail)
  | pair hquote hbrace heat hsecond =>
    exact .pair hquote hbrace (eat_embed heat k tail) (eat_embed hsecond k tail)
  | placeholder hquote heat hsecond hfound =>
    exact .placeholder hquote (eat_embed heat k tail) (eat_embed_eq_none htail (by decide) hsecond)
      (placeholder_embed htail hfound)
  | unmatched hquote heat hsecond =>
    exact .unmatched hquote (eat_embed heat k tail) (eat_embed_eq_none htail (by decide) hsecond)
  | plain hquote hc heat => exact .plain hquote hc (eat_embed heat k tail)

lemma textBody_embed {quote : Char} {start : Position} {cur : Cursor} {r : Text × Cursor}
    (h : textBody quote start cur = .ok r) (start' : Position) :
    textBody quote start' (cur.embed k tail) = .ok (r.1.down k, r.2.embed k tail) := by
  fun_induction textBody quote start cur generalizing r with
  | case1 cur e hs => cases h
  | case2 cur next hs =>
    cases h
    exact textBody_closed (textStep_embed htail hs start')
  | case3 cur found next hs ih =>
    obtain ⟨a, ha, rfl⟩ := map_eq_ok_iff.1 h
    rw [textBody_found (textStep_embed htail hs start'), ih ha, down_before]
    rfl

lemma text_embed {cur : Cursor} {r : Text × Cursor} (h : text cur = .ok r) :
    text (cur.embed k tail) = .ok (r.1.down k, r.2.embed k tail) := by
  obtain ⟨quote, next, hquote, heat, hbody⟩ := text_eq_ok_iff.1 h
  exact text_eq_ok_iff.2
    ⟨quote, next.embed k tail, hquote, eat_embed heat k tail, textBody_embed htail hbody _⟩

/-! ### Statements in the midst of a longer text -/

lemma lineEnd_embed {fault : Char → SyntaxError} {cur next : Cursor}
    (h : lineEnd fault cur = .ok next) :
    lineEnd fault (cur.embed k tail) = .ok (next.embed k tail) := by
  rw [lineEnd_eq_ok_iff, skipInline_embed htail]
  rcases lineEnd_eq_ok_iff.1 h with ⟨hend, rfl⟩ | ⟨hsign, rfl⟩
  · refine .inl ⟨?_, rfl⟩
    cases hrest : cur.skipInline.rest with
    | nil =>
      -- what was the end of the text is now the end of its line
      rw [embed, hrest]
      exact htail
    | cons c cs =>
      rw [hrest] at hend
      rw [embed, hrest]
      exact hend
  · refine .inr ⟨?_, (skipLine_embed htail _).symm⟩
    rw [embed, List.head?_append, hsign]
    rfl

lemma key_embed {cur next : Cursor} {name : String} {visibility : Visibility}
    (h : key cur = .ok ((name, visibility), next)) :
    key (cur.embed k tail) = .ok ((name, visibility), next.embed k tail) := by
  refine key_eq_ok_iff.2 ?_
  rcases key_eq_ok_iff.1 h with ⟨hhidden, opened, after, hopen, hid, hclose⟩ | ⟨hexposed, hnone, hid⟩
  · refine .inl ⟨hhidden, opened.embed k tail, after.embed k tail, eat_embed hopen k tail, ?_, ?_⟩
    · rw [skipInline_embed htail]
      exact identifier_embed htail hid
    · rw [skipInline_embed htail]
      exact eat_embed hclose k tail
  · exact .inr ⟨hexposed, eat_embed_eq_none htail (by decide) hnone, identifier_embed htail hid⟩

lemma message_embed {cur next : Cursor} {s : Statement} (h : message cur = .ok (s, next)) :
    message (cur.embed k tail) = .ok (s.down k, next.embed k tail) := by
  obtain ⟨name, visibility, t, afterKey, value, afterText, hkey, heat, htext, hend, rfl⟩ :=
    message_eq_ok_iff.1 h
  refine message_eq_ok_iff.2 ⟨name, visibility, t.down k, afterKey.embed k tail, value.embed k tail,
    afterText.embed k tail, key_embed htail hkey, ?_, ?_, lineEnd_embed htail hend, rfl⟩
  · rw [skipInline_embed htail]
    exact eat_embed heat k tail
  · rw [skipInline_embed htail]
    exact text_embed htail htext

lemma directive_embed {cur next : Cursor} {s : Statement} (h : directive cur = .ok (s, next)) :
    directive (cur.embed k tail) = .ok (s.down k, next.embed k tail) := by
  obtain ⟨name, after, hid, rfl, rfl⟩ := directive_eq_ok_iff.1 h
  refine directive_eq_ok_iff.2 ⟨name, after.embed k tail, identifier_embed htail hid,
    (skipLine_embed htail after).symm, ?_⟩
  rw [span_embed htail (by decide)]
  rfl

lemma header_embed {seen : Bool} {start : Position} {cur next : Cursor} {s : Statement}
    (h : header seen start cur = .ok (s, next)) (start' : Position) :
    s.isHeader = true ∧ header false start' (cur.embed k tail) = .ok (s.down k, next.embed k tail) := by
  obtain ⟨-, code, after, hcode, hend, rfl⟩ := header_eq_ok_iff.1 h
  exact ⟨rfl, header_eq_ok_iff.2
    ⟨rfl, code, after.embed k tail, code_embed hcode k tail, lineEnd_embed htail hend, rfl⟩⟩

/-- **A statement says the same in the midst of a longer text.** Whether there was a header before
matters for a header only. -/
theorem statement_embed {seen seen' : Bool} {cur next last : Cursor} {c : Char} {s : Statement}
    (h : statement seen cur c next = .ok (s, last)) (hseen : seen' = true → s.isHeader = false) :
    statement seen' (cur.embed k tail) c (next.embed k tail) = .ok (s.down k, last.embed k tail) := by
  rw [statement_eq_ok_iff] at h ⊢
  cases h with
  | comment hc =>
    rw [← skipLine_embed htail]
    exact .comment hc
  | header hc hopen h =>
    obtain ⟨hheader, hembed⟩ := header_embed (k := k) htail h (cur.embed k tail).position
    obtain rfl : seen' = false := by
      cases seen' with
      | false => rfl
      | true => rw [hseen rfl] at hheader; cases hheader
    exact .header hc (eat_embed hopen k tail) hembed
  | directive hc hopen h =>
    exact .directive hc (eat_embed_eq_none htail (by decide) hopen) (directive_embed htail h)
  | message hc h => exact .message hc (message_embed htail h)

end

/-- Blanks before the first statement do not matter, but for its place. -/
lemma statements_congr {seen : Bool} {a b : Cursor} (h : a.skip isBlank = b.skip isBlank) :
    statements seen a = statements seen b := by
  rw [statements.eq_def, statements.eq_def seen b]
  generalize a.skip isBlank = x at h ⊢
  subst h
  rfl

lemma statements_line (seen : Bool) (cs : List Char) (pos : Position) :
    statements seen ⟨'\n' :: cs, pos⟩ = statements seen ⟨cs, pos.after '\n'⟩ := by
  have hblank : isBlank '\n' = true := by decide
  refine statements_congr ?_
  simp only [skip, span, List.takeWhile_cons, List.dropWhile_cons, hblank, if_true, afterAll_cons]

/-- After a header there is no other. -/
lemma isHeader_of_statement_seen {cur next last : Cursor} {c : Char} {s : Statement}
    (h : statement true cur c next = .ok (s, last)) : s.isHeader = false := by
  cases statement_eq_ok_iff.1 h with
  | comment => rfl
  | header _ _ h => cases (header_eq_ok_iff.1 h).1
  | directive _ _ h =>
    obtain ⟨_, _, -, -, rfl⟩ := directive_eq_ok_iff.1 h
    rfl
  | message _ h =>
    obtain ⟨_, _, _, _, _, _, -, -, -, -, rfl⟩ := message_eq_ok_iff.1 h
    rfl

lemma isHeader_of_statements_seen {cur : Cursor} {ss : List (At Statement)}
    (h : statements true cur = .ok ss) : ∀ s ∈ ss, s.value.isHeader = false := by
  generalize hseen : true = seen at h
  fun_induction statements seen cur generalizing ss with
  | case1 seen cur hrest =>
    cases h
    intro s hs
    cases hs
  | case2 => cases h
  | case3 seen cur c cs hrest here s next hs =>
    rename_i ih
    obtain ⟨rest, hrest', rfl⟩ := map_eq_ok_iff.1 h
    subst hseen
    intro t ht
    rcases List.mem_cons.1 ht with rfl | ht
    · exact isHeader_of_statement_seen hs
    · exact ih rfl hrest' t ht

/-- **The statements of a text, in the midst of a longer one.** Those of what follows come after them,
and they are read as if the text before had been read. -/
theorem statements_embed {k : Nat} {tail : List Char} (htail : EndsLine tail) {seen : Bool}
    (seen' : Bool) {cur : Cursor} {ss : List (At Statement)} (h : statements seen cur = .ok ss)
    (hseen : seen' = true → ∀ s ∈ ss, s.value.isHeader = false) :
    statements seen' (cur.embed k tail) =
      (statements (seen' || ss.any (·.value.isHeader))
        ⟨tail, (cur.position.afterAll cur.rest).down k⟩).map (ss.map (At.moveDown k) ++ ·) := by
  fun_induction statements seen cur generalizing ss seen' with
  | case1 seen cur hrest =>
    cases h
    rw [statements_congr (skip_embed_of_nil hrest k tail), List.any_nil, Bool.or_false]
    cases statements seen' ⟨tail, (cur.position.afterAll cur.rest).down k⟩ <;> rfl
  | case2 => cases h
  | case3 seen cur c cs hrest here s next hs =>
    rename_i ih
    obtain ⟨rest, hrest', rfl⟩ := map_eq_ok_iff.1 h
    obtain ⟨pos, hpos⟩ : ∃ pos, cur.skip isBlank = ⟨c :: cs, pos⟩ := ⟨_, by rw [← hrest]⟩
    have hplace : here.position = pos := congrArg Cursor.position hpos
    have hskip : (cur.embed k tail).skip isBlank = ⟨c :: (cs ++ tail), pos.down k⟩ := by
      rw [skip_embed_of_cons hrest, hpos]
      rfl
    have hfirst := statement_embed (k := k) htail hs
      fun hs' : seen' = true => hseen hs' _ (List.mem_cons_self ..)
    simp only [here, hpos, embed, List.cons_append, down_after] at hfirst
    -- the end of the text is where it was
    have hend : next.position.afterAll next.rest = cur.position.afterAll cur.rest := by
      have hstays := statement_stays seen hrest
      rw [hs] at hstays
      rw [hstays.1.afterAll_rest]
      exact afterAll_skip cur isBlank
    have hrestSeen : (seen' || (s.down k).isHeader) = true → ∀ t ∈ rest, t.value.isHeader = false := by
      intro hor
      rcases Bool.or_eq_true_iff.1 hor with hs' | hs'
      · exact fun t ht => hseen hs' t (List.mem_cons_of_mem _ ht)
      · rw [isHeader_down] at hs'
        rw [hs', Bool.or_true] at hrest'
        exact isHeader_of_statements_seen hrest'
    rw [statements_cons hskip hfirst]
    simp only [embed] at ih
    rw [ih _ hrest' hrestSeen, hend, hplace, isHeader_down, List.any_cons, Bool.or_assoc]
    cases statements (seen' || (s.isHeader || rest.any (·.value.isHeader)))
      ⟨tail, (cur.position.afterAll cur.rest).down k⟩ <;> rfl

end Read

end Polyglot
