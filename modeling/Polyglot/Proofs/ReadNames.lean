import Polyglot.Document.Reader
import Mathlib.Tactic.Lemma

/-!
# The parameter names that reading gives

Reading takes any identifier for the name of a parameter. If it is a reserved word, the text is kept
and a slip is noted, and that slip is among those of the whole document.

* `Text.Named`: the names in a text are identifiers, and reserved words have left their slip;
* `textBody_named`: one piece after the other keeps this, so a whole text has it;
* `Draft.Named`, `read_named`: the same of a document, for every definition in it.
-/

namespace Polyglot

/-- The names in a text are identifiers, and for each reserved word among them there is a slip. -/
def Text.Named (t : Text) : Prop :=
  ∀ name format, Piece.parameter name format ∈ t.pieces →
    isIdentifier name = true ∧
      (isReserved name = true → ∃ position, At.mk (Slip.reservedParameter name) position ∈ t.slips)

theorem Text.Named.before {first t : Text} (hf : first.Named) (ht : t.Named) :
    (first.before t).Named := by
  intro name format hmem
  rcases List.mem_append.1 hmem with h | h
  · refine ⟨(hf name format h).1, fun hr => ?_⟩
    obtain ⟨position, hp⟩ := (hf name format h).2 hr
    exact ⟨position, List.mem_append_left _ hp⟩
  · refine ⟨(ht name format h).1, fun hr => ?_⟩
    obtain ⟨position, hp⟩ := (ht name format h).2 hr
    exact ⟨position, List.mem_append_right _ hp⟩

lemma named_ofPiece {p : Piece} (hp : ∀ name format, p ≠ .parameter name format) :
    (Text.ofPiece p).Named := by
  intro name format hmem
  exact absurd (List.mem_singleton.1 hmem).symm (hp name format)

lemma named_ofSlip (s : Slip) (position : Position) : (Text.ofSlip s position).Named := by
  intro name format hmem
  cases hmem

theorem identifier_isIdentifier {cur next : Cursor} {name : String}
    (h : cur.identifier = some (name, next)) : isIdentifier name = true := by
  obtain ⟨⟨c, cs, hrest, hc⟩, hspan⟩ := Cursor.identifier_eq_some_iff.1 h
  have hname : cur.rest.takeWhile isIdentifierPart = name.toList := congrArg Prod.fst hspan
  have hp : isIdentifierPart c = true := by simp [isIdentifierPart, hc]
  rw [isIdentifier, ← hname, hrest, List.takeWhile_cons, if_pos hp]
  simp only [isIdentifierChars, hc, Bool.true_and]
  exact List.all_takeWhile

namespace Read

/-! ### Between braces -/

lemma reference_named {cur next : Cursor} {found : Text} (h : reference cur = .ok (found, next)) :
    found.Named := by
  obtain ⟨name, after, -, -, rfl⟩ := reference_eq_ok_iff.1 h
  exact named_ofPiece fun _ _ => by simp

lemma parameter_named {cur next : Cursor} {found : Text} (h : parameter cur = .ok (found, next)) :
    found.Named := by
  obtain ⟨name, after, format, hid, -, rfl⟩ := parameter_eq_ok_iff.1 h
  intro name' format' hmem
  obtain ⟨rfl, -⟩ := Piece.parameter.inj (List.mem_singleton.1 hmem)
  refine ⟨identifier_isIdentifier hid, fun hr => ⟨cur.position, ?_⟩⟩
  simp [nameSlips, hr]

lemma placeholder_named {cur next : Cursor} {found : Text} (h : placeholder cur = .ok (found, next)) :
    found.Named := by
  rcases placeholder_eq_ok_iff.1 h with ⟨after, -, href⟩ | ⟨-, hparam⟩
  · exact reference_named href
  · exact parameter_named hparam

/-! ### A text -/

lemma escaped_named (c : Char) (position : Position) : (escaped c position).Named := by
  unfold escaped
  split
  · exact named_ofPiece fun _ _ => by simp
  · exact named_ofSlip _ _

/-- One step of reading a text gives a piece whose names are in order. -/
lemma textStep_named {quote : Char} {start : Position} {cur next : Cursor} {found : Text}
    (h : textStep quote start cur = .ok (some found, next)) : found.Named := by
  cases textStep_eq_ok_iff.1 h with
  | escape => exact escaped_named _ _
  | pair => exact named_ofPiece fun _ _ => by simp
  | placeholder _ _ _ hfound => exact placeholder_named hfound
  | unmatched => exact named_ofSlip _ _
  | plain => exact named_ofPiece fun _ _ => by simp

theorem textBody_named {quote : Char} {start : Position} {cur : Cursor} {r : Text × Cursor}
    (h : textBody quote start cur = .ok r) : r.1.Named := by
  fun_induction textBody quote start cur generalizing r with
  | case1 cur e hs => cases h
  | case2 cur next hs =>
    cases h
    intro name format hmem
    cases hmem
  | case3 cur found next hs ih =>
    obtain ⟨a, ha, rfl⟩ := map_eq_ok_iff.1 h
    exact (textStep_named hs).before (ih ha)

lemma text_named {cur : Cursor} {r : Text × Cursor} (h : text cur = .ok r) : r.1.Named := by
  obtain ⟨quote, next, -, -, hbody⟩ := text_eq_ok_iff.1 h
  exact textBody_named hbody

end Read

/-! ### Statements -/

/-- The names in the text of a message are in order. -/
def Statement.Named (s : Statement) : Prop :=
  ∀ key visibility text, s = .message key visibility text → text.Named

namespace Read

lemma statement_named {seen : Bool} {cur next last : Cursor} {c : Char} {s : Statement}
    (h : statement seen cur c next = .ok (s, last)) : s.Named := by
  intro key visibility t he
  subst he
  cases statement_eq_ok_iff.1 h with
  | header _ _ h =>
    obtain ⟨-, _, _, -, -, he⟩ := header_eq_ok_iff.1 h
    cases he
  | directive _ _ h =>
    obtain ⟨_, _, -, -, he⟩ := directive_eq_ok_iff.1 h
    cases he
  | message _ h =>
    obtain ⟨_, _, _, _, _, _, -, -, htext, -, he⟩ := message_eq_ok_iff.1 h
    cases he
    exact text_named htext

theorem statements_named {seen : Bool} {cur : Cursor} {ss : List (At Statement)}
    (h : statements seen cur = .ok ss) : ∀ s ∈ ss, s.value.Named := by
  fun_induction statements seen cur generalizing ss with
  | case1 seen cur hrest =>
    cases h
    intro s hs
    cases hs
  | case2 => cases h
  | case3 =>
    rename_i hs ih
    obtain ⟨rest, hrest', rfl⟩ := map_eq_ok_iff.1 h
    intro t ht
    rcases List.mem_cons.1 ht with rfl | ht
    · exact statement_named hs
    · exact ih hrest' t ht

end Read

/-! ### The document -/

/-- Every definition of the document comes from a text whose names are in order, and the slips of
that text are among those of the document. -/
def Draft.Named (d : Draft) : Prop :=
  ∀ definition ∈ d.document.definitions, ∃ text : Text, text.Named ∧
    definition.content = text.content ∧ definition.parameters = text.parameters ∧
    ∀ slip ∈ text.slips, slip ∈ d.slips

lemma Draft.Named.of_slips {d d' : Draft} (h : d.Named)
    (hd : d'.document.definitions = d.document.definitions) (hs : ∀ slip ∈ d.slips, slip ∈ d'.slips) :
    d'.Named := by
  intro definition hmem
  obtain ⟨text, ht, hc, hp, hsl⟩ := h definition (hd ▸ hmem)
  exact ⟨text, ht, hc, hp, fun slip hslip => hs slip (hsl slip hslip)⟩

theorem Draft.Named.add {d : Draft} (h : d.Named) {s : At Statement} (hs : s.value.Named) :
    (d.add s).Named := by
  obtain ⟨value, position⟩ := s
  cases value with
  | comment => exact h
  | header code => exact h.of_slips rfl fun _ hslip => hslip
  | directive name args =>
    unfold Draft.add Draft.addDirective
    simp only
    split
    · exact h.of_slips rfl fun _ hslip => hslip
    · exact h.of_slips rfl fun _ hslip => List.mem_append_left _ hslip
  | message key visibility text =>
    intro definition hmem
    rcases List.mem_append.1 hmem with hold | hnew
    · obtain ⟨t, ht, hc, hp, hsl⟩ := h definition hold
      exact ⟨t, ht, hc, hp, fun slip hslip => List.mem_append_left _ (hsl slip hslip)⟩
    · rw [List.mem_singleton] at hnew
      subst hnew
      exact ⟨text, hs key visibility text rfl, rfl, rfl,
        fun slip hslip => List.mem_append_right _ hslip⟩

/-- **Names are in order in all that reading gives.** -/
theorem read_named {source : String} {draft : Draft} (h : Document.read source = .ok draft) :
    draft.Named := by
  obtain ⟨ss, hss, rfl⟩ := map_eq_ok_iff.1 h
  have hnamed := Read.statements_named hss
  refine List.foldlRecOn ss Draft.add ?_ fun d hd s hs => hd.add (hnamed s hs)
  intro definition hmem
  cases hmem

end Polyglot
