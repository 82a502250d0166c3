import Polyglot.Proofs.TemplateReader

/-!
# Reading string literals back

A string literal is read as strict code has it: from a quote to the next one that has no backslash
in front of it, on one line, with a letter after a backslash standing for one character. The zero
character is written as a backslash and `0`, which stands for it only if no decimal digit follows.

* `readString`: what a string literal says, and what follows it;
* `ZeroBeforeDigit`: the texts that `quoteString` gets wrong;
* `readString_quoteString`: all other texts are read back, in the quotes that need fewer escapes.
-/

namespace Polyglot.Script

/-- A character of a literal: what it stands for, and whether there is a backslash in front of it. -/
structure Spelled where
  value : Char
  escaped : Bool
deriving DecidableEq, Repr

/-- The characters of a literal up to the quote that closes it, and what follows that quote. -/
def stringBody (quote : Char) : List Char → Option (List Spelled × List Char)
  | [] => none
  | c :: cs =>
    if c = quote then some ([], cs)
    else if c = '\\' then
      match cs with
      | [] => none
      | e :: es =>
        if e = '0' ∧ es.head?.any Char.isDigit then none
        else (cookEscape e).bind fun v =>
          (stringBody quote es).map fun r => (⟨v, true⟩ :: r.1, r.2)
    else if c = '\n' ∨ c = '\r' then none
    else (stringBody quote cs).map fun r => (⟨c, false⟩ :: r.1, r.2)

/-- A string literal, in either quotes, and what follows it. -/
def readString : List Char → Option (List Spelled × List Char)
  | [] => none
  | c :: cs => if c = '\'' ∨ c = '"' then stringBody c cs else none

/-- The quotes with a backslash in front of them. -/
def escapedQuotes (ss : List Spelled) : Nat :=
  ss.countP fun s => s.escaped && (s.value == '\'' || s.value == '"')

/-- A zero character stands right before a decimal digit. -/
def ZeroBeforeDigit (cs : List Char) : Prop :=
  ∃ d, d.isDigit = true ∧ ['\x00', d] <:+: cs

/-! ### Zero characters and digits -/

lemma zeroBeforeDigit_cons {c : Char} {cs : List Char} :
    ZeroBeforeDigit (c :: cs) ↔
      (c = '\x00' ∧ cs.head?.any Char.isDigit = true) ∨ ZeroBeforeDigit cs := by
  unfold ZeroBeforeDigit
  constructor
  · rintro ⟨d, hd, hin⟩
    rcases List.infix_cons_iff.1 hin with hpre | hin
    · obtain ⟨rfl, rest, rfl⟩ := List.cons_prefix_cons.1 hpre
      exact .inl ⟨rfl, hd⟩
    · exact .inr ⟨d, hd, hin⟩
  · rintro (⟨rfl, hdigit⟩ | ⟨d, hd, hin⟩)
    · cases cs with
      | nil => cases hdigit
      | cons d ds =>
        refine ⟨d, hdigit, List.infix_cons_iff.2 (.inl ?_)⟩
        exact List.cons_prefix_cons.2 ⟨rfl, ds, rfl⟩
    · exact ⟨d, hd, List.infix_cons_iff.2 (.inr hin)⟩

lemma not_zeroBeforeDigit_nil : ¬ ZeroBeforeDigit [] := by
  rintro ⟨d, -, hin⟩
  cases List.infix_nil.1 hin

/-- What a character is written as begins with a digit only if it is one. -/
lemma isDigit_head_escapeChar (c : Char) (tail : List Char) :
    (escapeChar c ++ tail).head?.any Char.isDigit = c.isDigit := by
  fun_cases escapeChar c <;> rfl

/-! ### The literal of a text -/

section

variable {quote : Char}

/-- How a character of a text is spelled between two `quote`s. -/
def spell (quote c : Char) : Spelled where
  value := c
  escaped := c = quote || escapeChar c != [c]

lemma stringBody_close (cs : List Char) : stringBody quote (quote :: cs) = some ([], cs) := by
  rw [stringBody.eq_def]
  exact if_pos rfl

lemma stringBody_escaped (hq : quote ≠ '\\') {e v : Char} (hv : cookEscape e = some v)
    (es : List Char) :
    stringBody quote ('\\' :: e :: es) =
      if e = '0' ∧ es.head?.any Char.isDigit then none
      else (stringBody quote es).map fun r => (⟨v, true⟩ :: r.1, r.2) := by
  rw [stringBody, if_neg (Ne.symm hq), if_pos rfl, hv]
  rfl

lemma stringBody_char {c : Char} (hq : c ≠ quote) (h1 : c ≠ '\\') (h2 : c ≠ '\n') (h3 : c ≠ '\r')
    (cs : List Char) :
    stringBody quote (c :: cs) = (stringBody quote cs).map fun r => (⟨c, false⟩ :: r.1, r.2) := by
  rw [stringBody.eq_def]
  simp only [if_neg hq, if_neg h1, if_neg (not_or.2 ⟨h2, h3⟩)]

/-- Only the zero character is written with `0`. -/
lemma escapeChar_eq_zero {c e : Char} (h : escapeChar c = ['\\', e]) : e = '0' ↔ c = '\x00' := by
  constructor
  · rintro rfl
    revert h
    fun_cases escapeChar c <;> simp
  · rintro rfl
    exact (List.cons.inj (List.cons.inj h).2).1.symm

/-- Reading one character of a text back from what it is written as. -/
lemma stringBody_step (hq : quote = '\'' ∨ quote = '"') (c : Char) (rest : List Char) :
    stringBody quote ((if c = quote then ['\\', quote] else escapeChar c) ++ rest) =
      if c = '\x00' ∧ rest.head?.any Char.isDigit then none
      else (stringBody quote rest).map fun r => (spell quote c :: r.1, r.2) := by
  have hback : quote ≠ '\\' := by rcases hq with rfl | rfl <;> decide
  by_cases hc : c = quote
  · subst hc
    have hcook : cookEscape c = some c := by rcases hq with rfl | rfl <;> decide
    have hzero : c ≠ '0' ∧ c ≠ '\x00' := by rcases hq with rfl | rfl <;> decide
    rw [if_pos rfl, List.cons_append, List.singleton_append, stringBody_escaped hback hcook,
      if_neg (fun h => hzero.1 h.1), if_neg (fun h => hzero.2 h.1)]
    simp [spell]
  · rw [if_neg hc]
    rcases escapeChar_cases c with ⟨e, he, hcook, -⟩ | ⟨he, h1, h2, h3⟩
    · have hspell : spell quote c = ⟨c, true⟩ := by simp [spell, he]
      rw [he, List.cons_append, List.singleton_append, stringBody_escaped hback hcook, hspell]
      simp only [escapeChar_eq_zero he]
    · have hspell : spell quote c = ⟨c, false⟩ := by simp [spell, he, hc]
      have hzero : c ≠ '\x00' := by
        rintro rfl
        cases he
      rw [he, List.singleton_append, stringBody_char hc h1 h2 h3, hspell, if_neg (fun h => hzero h.1)]

lemma escapeQuoted_cons (c : Char) (cs : List Char) :
    escapeQuoted quote (c :: cs) =
      (if c = quote then ['\\', quote] else escapeChar c) ++ escapeQuoted quote cs :=
  List.flatMap_cons

lemma isDigit_head_escapeQuoted (hq : quote = '\'' ∨ quote = '"') (cs : List Char) :
    (escapeQuoted quote cs ++ [quote]).head?.any Char.isDigit = cs.head?.any Char.isDigit := by
  cases cs with
  | nil => rcases hq with rfl | rfl <;> rfl
  | cons c cs =>
    rw [escapeQuoted_cons, List.append_assoc]
    by_cases hc : c = quote
    · subst hc
      rcases hq with rfl | rfl <;> rfl
    · rw [if_neg hc, isDigit_head_escapeChar]
      rfl

/-- A text between two quotes is read back, unless a zero character stands before a digit in it. -/
theorem stringBody_escapeQuoted (hq : quote = '\'' ∨ quote = '"') (cs : List Char) :
    (¬ ZeroBeforeDigit cs →
      stringBody quote (escapeQuoted quote cs ++ [quote]) = some (cs.map (spell quote), [])) ∧
    (ZeroBeforeDigit cs → stringBody quote (escapeQuoted quote cs ++ [quote]) = none) := by
  induction cs with
  | nil => exact ⟨fun _ => stringBody_close [], fun h => absurd h not_zeroBeforeDigit_nil⟩
  | cons c cs ih =>
    rw [zeroBeforeDigit_cons, escapeQuoted_cons, List.append_assoc, stringBody_step hq,
      isDigit_head_escapeQuoted hq]
    by_cases hhere : c = '\x00' ∧ cs.head?.any Char.isDigit = true
    · rw [if_pos hhere]
      exact ⟨fun h => absurd (.inl hhere) h, fun _ => rfl⟩
    · rw [if_neg hhere]
      refine ⟨fun h => ?_, fun h => ?_⟩
      · rw [ih.1 (fun h' => h (.inr h'))]
        rfl
      · rw [ih.2 (h.resolve_left hhere)]
        rfl

/-! ### Fewest escapes -/

/-- The quote that closes a literal is in it only with a backslash. -/
lemma escaped_of_mem_stringBody {cs rest : List Char} {ss : List Spelled}
    (h : stringBody quote cs = some (ss, rest)) : ∀ s ∈ ss, s.value = quote → s.escaped = true := by
  fun_induction stringBody quote cs generalizing ss with
  | case1 => cases h
  | case2 cs =>
    obtain ⟨rfl, -⟩ := Prod.mk.inj (Option.some.inj h)
    intro s hs
    cases hs
  | case3 => cases h
  | case4 => cases h
  | case5 e es hc hzero ih =>
    obtain ⟨v, -, hv⟩ := Option.bind_eq_some_iff.1 h
    obtain ⟨r, hr, heq⟩ := Option.map_eq_some_iff.1 hv
    obtain ⟨rfl, rfl⟩ := Prod.mk.inj heq
    intro s hs
    rcases List.mem_cons.1 hs with rfl | hs
    · exact fun _ => rfl
    · exact ih hr s hs
  | case6 => cases h
  | case7 c cs hc h1 h2 ih =>
    obtain ⟨r, hr, heq⟩ := Option.map_eq_some_iff.1 h
    obtain ⟨rfl, rfl⟩ := Prod.mk.inj heq
    intro s hs hv
    rcases List.mem_cons.1 hs with rfl | hs
    · exact absurd hv hc
    · exact ih hr s hs hv

/-- A literal escapes each of the quotes that delimit it. -/
lemma count_le_escapedQuotes (hq : quote = '\'' ∨ quote = '"') {cs rest : List Char}
    {ss : List Spelled} (h : stringBody quote cs = some (ss, rest)) :
    (ss.map (·.value)).count quote ≤ escapedQuotes ss := by
  unfold escapedQuotes List.count
  rw [List.countP_map]
  refine List.countP_mono_left fun s hs hv => ?_
  have hvalue : s.value = quote := by simpa using hv
  rw [escaped_of_mem_stringBody h s hs hvalue, hvalue]
  rcases hq with rfl | rfl <;> rfl

/-- The literal of a text escapes no other quotes. -/
lemma escapedQuotes_spell (hq : quote = '\'' ∨ quote = '"') (cs : List Char) :
    escapedQuotes (cs.map (spell quote)) = cs.count quote := by
  unfold escapedQuotes List.count
  rw [List.countP_map]
  refine List.countP_congr fun c _ => ?_
  by_cases hc : c = quote
  · subst hc
    rcases hq with rfl | rfl <;> simp [spell]
  · suffices h : c = '\'' ∨ c = '"' → escapeChar c = [c] by
      simpa [spell, hc] using fun hne => ⟨fun h1 => hne (h (.inl h1)), fun h2 => hne (h (.inr h2))⟩
    rintro (rfl | rfl) <;> rfl

end

lemma count_chooseQuote_le {cs : List Char} {quote : Char} (hq : quote = '\'' ∨ quote = '"') :
    cs.count (chooseQuote cs) ≤ cs.count quote := by
  rw [chooseQuote_eq]
  split <;> rcases hq with rfl | rfl <;> omega

/-- **A string literal is read back as the text, in the quotes that need fewer escapes**, unless the
text has a zero character right before a decimal digit. The literal begins and ends with the quote
that occurs less often in the text, the single one if they occur equally often. If no zero character
stands before a digit, the literal is complete, its last character closes it, what it says is the
text, and no other literal of that text escapes fewer quotes. If one does, the literal is refused. -/
theorem readString_quoteString (text : String) :
    (∃ quote body, (quoteString text).toList = quote :: body ++ [quote] ∧
      quote = if text.toList.count '"' < text.toList.count '\'' then '"' else '\'') ∧
    (¬ ZeroBeforeDigit text.toList →
      ∃ ss, readString (quoteString text).toList = some (ss, []) ∧
        ss.map (·.value) = text.toList ∧
        ∀ other ss', readString other = some (ss', []) → ss'.map (·.value) = text.toList →
          escapedQuotes ss ≤ escapedQuotes ss') ∧
    (ZeroBeforeDigit text.toList → readString (quoteString text).toList = none) := by
  have hliteral : (quoteString text).toList = chooseQuote text.toList ::
      (escapeQuoted (chooseQuote text.toList) text.toList ++ [chooseQuote text.toList]) := by
    rw [quoteString, String.toList_ofList]
    rfl
  have hq := chooseQuote_cases text.toList
  have hread : readString (quoteString text).toList = stringBody (chooseQuote text.toList)
      (escapeQuoted (chooseQuote text.toList) text.toList ++ [chooseQuote text.toList]) := by
    rw [hliteral, readString, if_pos hq]
  obtain ⟨hgood, hbad⟩ := stringBody_escapeQuoted hq text.toList
  refine ⟨⟨_, _, hliteral, chooseQuote_eq _⟩, fun hz => ?_, fun hz => hread.trans (hbad hz)⟩
  refine ⟨_, hread.trans (hgood hz), ?_, fun other ss' hother hvalue => ?_⟩
  · rw [List.map_map]
    exact List.map_id _
  unfold readString at hother
  split at hother
  · cases hother
  · rename_i c cs
    split at hother
    · rename_i hc
      calc escapedQuotes (text.toList.map (spell (chooseQuote text.toList)))
          = text.toList.count (chooseQuote text.toList) := escapedQuotes_spell hq _
        _ ≤ text.toList.count c := count_chooseQuote_le hc
        _ ≤ escapedQuotes ss' := hvalue ▸ count_le_escapedQuotes hc hother
    · cases hother

/-- A zero character before a letter, and more single quotes than double ones. -/
theorem readString_quoteString_apostrophes :
    ¬ ZeroBeforeDigit "it's 'a' \"b\x00c\\\n".toList ∧
    quoteString "it's 'a' \"b\x00c\\\n" = "\"it's 'a' \\\"b\\0c\\\\\\n\"" ∧
    ∃ ss, readString (quoteString "it's 'a' \"b\x00c\\\n").toList = some (ss, []) ∧
      ss.map (·.value) = "it's 'a' \"b\x00c\\\n".toList := by
  have hzero : ¬ ZeroBeforeDigit "it's 'a' \"b\x00c\\\n".toList := by
    simp [zeroBeforeDigit_cons, not_zeroBeforeDigit_nil]
  obtain ⟨ss, hread, hvalue, -⟩ := (readString_quoteString "it's 'a' \"b\x00c\\\n").2.1 hzero
  exact ⟨hzero, by decide, ss, hread, hvalue⟩

/-- A zero character before a digit is written as an octal escape, which strict code has not. -/
theorem readString_zero_digit : quoteString "\x001" = "'\\01'" ∧
    readString (quoteString "\x001").toList = none := by
  decide

end Polyglot.Script
