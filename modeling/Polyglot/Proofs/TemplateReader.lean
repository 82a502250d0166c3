import Polyglot.Script.Literal
import Polyglot.Text.Identifier
import Mathlib.Tactic.Lemma

/-!
# Reading template literals

A reader for the template literals of ECMAScript. It refuses what generated code has no use for:
escapes of more than one character, line continuations, raw carriage returns, and slashes in code,
where they could begin a comment or a regular expression. The escape for the null character is read
as such whatever follows it.

* `substitution`: code up to the brace that closes it; strings, braces and literals within are
  passed over as a whole;
* `readTemplate`: a literal, as its texts and the code between them;
* `Enclosed`: code that a substitution may hold; plain characters and string literals are enclosed,
  and so is what is put together from enclosed pieces;
* `templateText_escape`: escaped text is read as the text itself.
-/

namespace Polyglot.Script

/-! ### The reader -/

/-- What a scanner of code is in the midst of. -/
inductive Mode where
  /-- Code, with this many braces open. -/
  | code (depth : Nat)
  | string (quote : Char)
  | template
deriving DecidableEq, Repr

/-- A character in front of what was passed over. -/
def pass (c : Char) (r : Option (List Char × List Char)) : Option (List Char × List Char) :=
  r.map fun r => (c :: r.1, r.2)

/-- The code of a substitution, and what follows the brace that closes it. The first mode is the
innermost. -/
def substitution : List Mode → List Char → Option (List Char × List Char)
  | _, [] => none
  | [], _ :: _ => none
  | .code depth :: modes, c :: cs =>
    if c = '{' then pass c (substitution (.code (depth + 1) :: modes) cs)
    else if c = '}' then
      match depth, modes with
      | depth + 1, modes => pass c (substitution (.code depth :: modes) cs)
      | 0, [] => some ([], cs)
      | 0, mode :: modes => pass c (substitution (mode :: modes) cs)
    else if c = '\'' || c = '"' then pass c (substitution (.string c :: .code depth :: modes) cs)
    else if c = '\x60' then pass c (substitution (.template :: .code depth :: modes) cs)
    else if c = '/' then none
    else pass c (substitution (.code depth :: modes) cs)
  | .string quote :: modes, c :: cs =>
    if c = quote then pass c (substitution modes cs)
    else if c = '\\' then
      match cs with
      | [] => none
      | e :: es =>
        if e = '\n' || e = '\r' then none
        else pass c (pass e (substitution (.string quote :: modes) es))
    else if c = '\n' || c = '\r' then none
    else pass c (substitution (.string quote :: modes) cs)
  | .template :: modes, c :: cs =>
    if c = '\x60' then pass c (substitution modes cs)
    else if c = '\\' then
      match cs with
      | [] => none
      | e :: es => pass c (pass e (substitution (.template :: modes) es))
    else if c = '$' then
      match cs with
      | '{' :: es => pass c (pass '{' (substitution (.code 0 :: .template :: modes) es))
      | cs => pass c (substitution (.template :: modes) cs)
    else pass c (substitution (.template :: modes) cs)

/-- The character that a backslash and `c` stand for. -/
def cookEscape (c : Char) : Option Char :=
  if c = 'n' then some '\n'
  else if c = 'r' then some '\r'
  else if c = 't' then some '\t'
  else if c = 'v' then some '\x0B'
  else if c = 'b' then some '\x08'
  else if c = 'f' then some '\x0C'
  else if c = '0' then some '\x00'
  else if c.isDigit || c = 'x' || c = 'u' || c = '\n' || c = '\r' || c = '\u2028' || c = '\u2029' then
    none
  else some c

/-- What a template literal says: the text before its first substitution, and each substitution with
the text after it. -/
structure TemplateReading where
  first : List Char
  rest : List (List Char × List Char)
deriving DecidableEq, Repr

namespace TemplateReading

/-- More text at the beginning. -/
def prepend (cs : List Char) (t : TemplateReading) : TemplateReading :=
  { t with first := cs ++ t.first }

/-- A substitution at the beginning. -/
def substitute (code : List Char) (t : TemplateReading) : TemplateReading :=
  ⟨[], (code, t.first) :: t.rest⟩

/-- The texts. There is one more of them than there are substitutions. -/
def texts (t : TemplateReading) : List (List Char) :=
  t.first :: t.rest.map (·.2)

/-- The code of the substitutions, in order. -/
def codes (t : TemplateReading) : List (List Char) :=
  t.rest.map (·.1)

end TemplateReading

/-- Whatever is passed over is code, a closing brace and the rest. -/
def Splits (cs : List Char) (o : Option (List Char × List Char)) : Prop :=
  ∀ r, o = some r → cs = r.1 ++ '}' :: r.2

lemma Splits.pass {cs : List Char} {o : Option (List Char × List Char)} (h : Splits cs o) (c : Char) :
    Splits (c :: cs) (pass c o) := by
  intro r hr
  obtain ⟨s, hs, rfl⟩ := Option.map_eq_some_iff.1 hr
  rw [h s hs]
  rfl

lemma splits_none (cs : List Char) : Splits cs none := by
  intro r hr
  cases hr

theorem substitution_splits (modes : List Mode) (cs : List Char) :
    Splits cs (substitution modes cs) := by
  fun_induction substitution modes cs with
  | case5 cs =>
    intro r hr
    cases hr
    rfl
  | case14 quote modes e es _ _ ih => exact (ih.pass e).pass _
  | case19 modes e es _ ih => exact (ih.pass e).pass _
  | case20 modes es _ _ ih => exact (ih.pass _).pass _
  | case1 | case2 | case9 | case12 | case13 | case15 | case18 => exact splits_none _
  | _ => exact Splits.pass ‹_› _

theorem substitution_lt {modes : List Mode} {cs code rest : List Char}
    (h : substitution modes cs = some (code, rest)) : rest.length < cs.length := by
  have := congrArg List.length (substitution_splits modes cs _ h)
  simp only [List.length_append, List.length_cons] at this
  omega

/-- What a literal says from here to its closing backquote, and what follows that. -/
def templateText (cs : List Char) : Option (TemplateReading × List Char) :=
  match cs with
  | [] => none
  | c :: cs =>
    if c = '\x60' then some (⟨[], []⟩, cs)
    else if c = '\\' then
      match cs with
      | [] => none
      | e :: es =>
        match cookEscape e with
        | none => none
        | some v => (templateText es).map fun r => (r.1.prepend [v], r.2)
    else if c = '\r' then none
    else
      match cs with
      | [] => none
      | d :: ds =>
        if c = '$' ∧ d = '{' then
          match _hs : substitution [.code 0] ds with
          | none => none
          | some (code, after) => (templateText after).map fun r => (r.1.substitute code, r.2)
        else (templateText (d :: ds)).map fun r => (r.1.prepend [c], r.2)
termination_by cs.length
decreasing_by
  · simp only [List.length_cons]; omega
  · have := substitution_lt _hs
    simp only [List.length_cons]
    omega
  · simp only [List.length_cons]; omega

/-- A template literal, and what follows it. -/
def readTemplate : List Char → Option (TemplateReading × List Char)
  | [] => none
  | c :: cs => if c = '\x60' then templateText cs else none

/-! ### Steps of the reader -/

lemma templateText_close (cs : List Char) : templateText ('\x60' :: cs) = some (⟨[], []⟩, cs) := by
  rw [templateText.eq_def]
  simp only [if_true]

lemma templateText_escaped {e v : Char} (h : cookEscape e = some v) (es : List Char) :
    templateText ('\\' :: e :: es) = (templateText es).map fun r => (r.1.prepend [v], r.2) := by
  rw [templateText.eq_def]
  simp only [if_neg (show ¬ '\\' = '\x60' by decide), if_true, h]

lemma templateText_substitution {cs code after : List Char}
    (h : substitution [.code 0] cs = some (code, after)) :
    templateText ('$' :: '{' :: cs) =
      (templateText after).map fun r => (r.1.substitute code, r.2) := by
  rw [templateText.eq_def]
  simp only [if_neg (show ¬ '$' = '\x60' by decide), if_neg (show ¬ '$' = '\\' by decide),
    if_neg (show ¬ '$' = '\r' by decide), and_self, if_true]
  split
  · rename_i hn
    rw [h] at hn
    cases hn
  · rename_i hs
    rw [h] at hs
    cases hs
    rfl

lemma templateText_char {c : Char} {cs : List Char} (h1 : c ≠ '\x60') (h2 : c ≠ '\\')
    (h3 : c ≠ '\r') (h4 : c = '$' → cs.head? ≠ some '{') :
    templateText (c :: cs) = (templateText cs).map fun r => (r.1.prepend [c], r.2) := by
  rw [templateText.eq_def]
  simp only [if_neg h1, if_neg h2, if_neg h3]
  cases cs with
  | nil =>
    rw [templateText.eq_def]
    rfl
  | cons d ds =>
    have hopen : ¬ (c = '$' ∧ d = '{') := by
      rintro ⟨hc, rfl⟩
      exact h4 hc rfl
    simp only [if_neg hopen]

/-! ### Escaped text -/

/-- A character is written with a backslash and what that is read back from, or as it is. -/
lemma escapeChar_cases (c : Char) :
    (∃ e, escapeChar c = ['\\', e] ∧ cookEscape e = some c ∧ e ≠ '\n' ∧ e ≠ '\r') ∨
    (escapeChar c = [c] ∧ c ≠ '\\' ∧ c ≠ '\n' ∧ c ≠ '\r') := by
  unfold escapeChar
  split
  · exact Or.inl ⟨'\\', rfl, by decide, by decide, by decide⟩
  · exact Or.inl ⟨'0', rfl, by decide, by decide, by decide⟩
  · exact Or.inl ⟨'n', rfl, by decide, by decide, by decide⟩
  · exact Or.inl ⟨'r', rfl, by decide, by decide, by decide⟩
  · exact Or.inl ⟨'v', rfl, by decide, by decide, by decide⟩
  · exact Or.inl ⟨'t', rfl, by decide, by decide, by decide⟩
  · exact Or.inl ⟨'b', rfl, by decide, by decide, by decide⟩
  · exact Or.inl ⟨'f', rfl, by decide, by decide, by decide⟩
  · rename_i h1 _ h3 h4 _ _ _ _
    exact Or.inr ⟨rfl, h1, h3, h4⟩

/-- Escaped text begins with a brace only if the text does. -/
lemma head_escapeTemplateChars {cs tail : List Char} (hcs : cs.head? ≠ some '{')
    (htail : cs = [] → tail.head? ≠ some '{') :
    (escapeTemplateChars cs ++ tail).head? ≠ some '{' := by
  fun_cases escapeTemplateChars cs with
  | case1 => simpa using htail
  | case2 cs => simp
  | case3 c cs =>
    by_cases hc : c = '\x60'
    · simp [hc]
    · rw [if_neg hc]
      rcases escapeChar_cases c with ⟨e, he, -⟩ | ⟨he, -⟩
      · simp [he]
      · simpa [he] using hcs

lemma prepend_prepend (cs ds : List Char) (t : TemplateReading) :
    (t.prepend ds).prepend cs = t.prepend (cs ++ ds) := by
  simp [TemplateReading.prepend]

lemma map_prepend_map (cs ds : List Char) (o : Option (TemplateReading × List Char)) :
    (o.map fun r => (r.1.prepend ds, r.2)).map (fun r => (r.1.prepend cs, r.2)) =
      o.map fun r => (r.1.prepend (cs ++ ds), r.2) := by
  cases o with
  | none => rfl
  | some r => simp [prepend_prepend]

/-- **Escaped text is read as the text itself**, if no brace follows it that a dollar sign at its
end could open a substitution with. -/
theorem templateText_escape (cs : List Char) {tail : List Char} (htail : tail.head? ≠ some '{') :
    templateText (escapeTemplateChars cs ++ tail) =
      (templateText tail).map fun r => (r.1.prepend cs, r.2) := by
  fun_induction escapeTemplateChars cs with
  | case1 =>
    have hid : (fun r : TemplateReading × List Char => (r.1.prepend [], r.2)) = id := rfl
    rw [hid, Option.map_id]
    rfl
  | case2 cs ih =>
    show templateText ('\\' :: '$' :: '{' :: (escapeTemplateChars cs ++ tail)) = _
    rw [templateText_escaped (v := '$') (by decide),
      templateText_char (by decide) (by decide) (by decide) (by simp), ih, map_prepend_map,
      map_prepend_map]
    rfl
  | case3 c cs hopen ih =>
    rw [List.append_assoc]
    by_cases hc : c = '\x60'
    · subst hc
      show templateText ('\\' :: '\x60' :: (escapeTemplateChars cs ++ tail)) = _
      rw [templateText_escaped (v := '\x60') (by decide), ih, map_prepend_map]
      rfl
    · rw [if_neg hc]
      rcases escapeChar_cases c with ⟨e, he, hv, -⟩ | ⟨he, h2, -, h3⟩
      · rw [he]
        show templateText ('\\' :: e :: (escapeTemplateChars cs ++ tail)) = _
        rw [templateText_escaped hv, ih, map_prepend_map]
        rfl
      · -- a dollar sign stands here only if the text has no brace after it
        have h4 : c = '$' → (escapeTemplateChars cs ++ tail).head? ≠ some '{' := by
          intro hd
          refine head_escapeTemplateChars (fun hhead => ?_) fun _ => htail
          obtain ⟨ds, rfl⟩ := List.head?_eq_some_iff.1 hhead
          exact hopen ds hd rfl
        rw [he]
        show templateText (c :: (escapeTemplateChars cs ++ tail)) = _
        rw [templateText_char hc h2 h3 h4, ih, map_prepend_map]
        rfl

/-! ### Enclosed code -/

/-- In front of more code, this code is passed over and nothing else changes. -/
def Enclosed (code : List Char) : Prop :=
  ∀ rest, substitution [.code 0] (code ++ rest) =
    (substitution [.code 0] rest).map fun r => (code ++ r.1, r.2)

theorem Enclosed.append {a b : List Char} (ha : Enclosed a) (hb : Enclosed b) : Enclosed (a ++ b) := by
  intro rest
  rw [List.append_assoc, ha, hb, Option.map_map]
  congr 1
  funext r
  simp

/-- Enclosed code is all that a substitution takes up before its closing brace. -/
theorem Enclosed.substitution {code : List Char} (h : Enclosed code) (rest : List Char) :
    substitution [.code 0] (code ++ '}' :: rest) = some (code, rest) := by
  rw [h, Script.substitution.eq_def]
  simp

/-- Characters that mean nothing to a scanner of code. -/
def isPlain (c : Char) : Bool :=
  c != '{' && c != '}' && c != '\'' && c != '"' && c != '\x60' && c != '/'

lemma enclosed_cons {c : Char} (hc : isPlain c = true) : Enclosed [c] := by
  intro rest
  simp only [isPlain, Bool.and_eq_true, bne_iff_ne] at hc
  obtain ⟨⟨⟨⟨⟨h1, h2⟩, h3⟩, h4⟩, h5⟩, h6⟩ := hc
  show Script.substitution [.code 0] (c :: rest) = _
  rw [Script.substitution.eq_def]
  simp [h1, h2, h3, h4, h5, h6, pass]

theorem enclosed_of_plain {code : List Char} (h : code.all isPlain = true) : Enclosed code := by
  induction code with
  | nil =>
    intro rest
    simp
  | cons c cs ih =>
    obtain ⟨hc, hcs⟩ := Bool.and_eq_true_iff.1 h
    exact (enclosed_cons hc).append (ih hcs)

lemma isPlain_of_isIdentifierPart {c : Char} (h : isIdentifierPart c = true) : isPlain c = true := by
  cases hp : isPlain c with
  | true => rfl
  | false =>
    simp only [isPlain, Bool.and_eq_false_iff, bne_eq_false_iff_eq] at hp
    rcases hp with ((((rfl | rfl) | rfl) | rfl) | rfl) | rfl <;> revert h <;> decide

/-- **An escaped string ends at its closing quote.** -/
theorem string_escapeQuoted {quote : Char} (hq : quote = '\'' ∨ quote = '"') (modes : List Mode)
    (cs rest : List Char) :
    Script.substitution (.string quote :: modes) (escapeQuoted quote cs ++ quote :: rest) =
      (Script.substitution modes rest).map fun r => (escapeQuoted quote cs ++ quote :: r.1, r.2) := by
  have hslash : ¬ '\\' = quote := by
    rcases hq with rfl | rfl <;> decide
  induction cs with
  | nil =>
    rw [Script.substitution.eq_def]
    simp [escapeQuoted, pass]
  | cons c cs ih =>
    have hcons : escapeQuoted quote (c :: cs) =
        (if c = quote then ['\\', quote] else escapeChar c) ++ escapeQuoted quote cs := rfl
    -- a backslash and the character after it are passed over together
    have hpair : ∀ e, e ≠ '\n' → e ≠ '\r' →
        Script.substitution (.string quote :: modes)
          ('\\' :: e :: (escapeQuoted quote cs ++ quote :: rest)) =
        (Script.substitution modes rest).map
          fun r => ('\\' :: e :: (escapeQuoted quote cs ++ quote :: r.1), r.2) := by
      intro e he1 he2
      rw [Script.substitution.eq_def]
      simp only [if_neg hslash, if_true, he1, he2, decide_false, Bool.or_self, Bool.false_eq_true,
        if_false, ih, pass, Option.map_map]
      rfl
    rw [hcons]
    by_cases hc : c = quote
    · rw [if_pos hc]
      refine hpair quote ?_ ?_
      · rcases hq with rfl | rfl <;> decide
      · rcases hq with rfl | rfl <;> decide
    · rw [if_neg hc]
      rcases escapeChar_cases c with ⟨e, he, -, he1, he2⟩ | ⟨he, h1, h2, h3⟩
      · rw [he]
        exact hpair e he1 he2
      · rw [he]
        show Script.substitution (.string quote :: modes)
          (c :: (escapeQuoted quote cs ++ quote :: rest)) = _
        rw [Script.substitution.eq_def]
        simp only [if_neg hc, if_neg h1, h2, h3, decide_false, Bool.or_self, Bool.false_eq_true,
          if_false, ih, pass, Option.map_map]
        rfl

/-- String literals are enclosed, whatever is in them. -/
theorem enclosed_quoteChars (cs : List Char) : Enclosed (quoteChars cs) := by
  intro rest
  have hq := chooseQuote_cases cs
  have hopen : ¬ chooseQuote cs = '{' ∧ ¬ chooseQuote cs = '}' := by
    rcases hq with h | h <;> rw [h] <;> decide
  have hquote : (decide (chooseQuote cs = '\'') || decide (chooseQuote cs = '"')) = true := by
    rcases hq with h | h <;> simp [h]
  have hlist : quoteChars cs ++ rest =
      chooseQuote cs :: (escapeQuoted (chooseQuote cs) cs ++ chooseQuote cs :: rest) := by
    simp [quoteChars]
  rw [hlist, Script.substitution.eq_def]
  simp only [if_neg hopen.1, if_neg hopen.2, hquote, if_true, string_escapeQuoted hq, pass,
    Option.map_map]
  congr 1
  funext r
  simp [quoteChars]

end Polyglot.Script
