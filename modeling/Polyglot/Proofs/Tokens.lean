import Polyglot.Proofs.Rereading
import Polyglot.Proofs.StringLiteral

/-!
# The tokens of generated code

A text is cut into words, runs of operator characters, other signs, string literals and template
literals. Blanks between tokens are dropped; a literal is one token with all that is in it, the code
of its substitutions too. A slash in code is refused, where it could begin a comment or a regular
expression, and so is a literal that does not end.

* `advance`: what a character does to the literals that are open;
* `tokens`: the tokens of a text;
* `tokens_append`: texts that do not run into each other have the tokens of both;
* `Passes`: code that a substitution may hold, in front of anything;
* `tokens_quoteString`, `tokens_template`: literals are single tokens.
-/

namespace Polyglot.Script

abbrev Token := List Char

/-! ### The scanner -/

/-- Something that a scanner is in the midst of. -/
inductive Inside where
  | string (quote : Char)
  | template
  /-- The code of a substitution, with this many braces open. -/
  | code (depth : Nat)
  /-- A backslash in a literal: the next character is part of it, whatever it is. -/
  | escape
  /-- A dollar sign in a template literal: a brace opens a substitution. -/
  | dollar
deriving DecidableEq, Repr

/-- What a character of code opens. -/
def opens (c : Char) : Option (List Inside) :=
  if c = '\'' ∨ c = '"' then some [.string c]
  else if c = '\x60' then some [.template]
  else if c = '/' then none
  else some []

/-- What a character makes of all that is open. The innermost comes first. -/
def advance : List Inside → Char → Option (List Inside)
  | [], c => opens c
  | .code depth :: outer, c =>
    if c = '{' then some (.code (depth + 1) :: outer)
    else if c = '}' then
      match depth with
      | 0 => some outer
      | depth + 1 => some (.code depth :: outer)
    else (opens c).map (· ++ .code depth :: outer)
  | .string quote :: outer, c =>
    if c = quote then some outer
    else if c = '\\' then some (.escape :: .string quote :: outer)
    else if c = '\n' ∨ c = '\r' then none
    else some (.string quote :: outer)
  | .template :: outer, c =>
    if c = '\x60' then some outer
    else if c = '\\' then some (.escape :: .template :: outer)
    else if c = '$' then some (.dollar :: .template :: outer)
    else some (.template :: outer)
  | .escape :: outer, _ => some outer
  | .dollar :: outer, c => if c = '{' then some (.code 0 :: outer) else advance outer c

/-- Characters that make up operators. The dot stands alone. -/
def operatorSigns : List Char :=
  "=<>!+-*%&|^?".toList

def isOperator (c : Char) : Bool :=
  operatorSigns.contains c

/-- Whether a token that ends in `a` goes on with `b`. -/
def sticks (a b : Char) : Bool :=
  (isIdentifierPart a && isIdentifierPart b) || (isOperator a && isOperator b)

/-- Whether the token that was begun goes on. -/
def continues (run : List Char) (c : Char) : Bool :=
  run.getLast?.any (sticks · c)

/-- The token that was begun, if there is one. -/
def flush (run : List Char) : List Token :=
  if run.isEmpty then [] else [run]

/-- The tokens of a text, after the beginning `run` of a token. A literal that was closed goes on with
nothing, so it is flushed like a sign. -/
def tokensFrom : List Inside → List Char → List Char → Option (List Token)
  | [], run, [] => some (flush run)
  | _ :: _, _, [] => none
  | [], run, c :: cs =>
    if continues run c then tokensFrom [] (run ++ [c]) cs
    else if isBlank c then (tokensFrom [] [] cs).map (flush run ++ ·)
    else (opens c).bind fun inside => (tokensFrom inside [c] cs).map (flush run ++ ·)
  | i :: outer, run, c :: cs =>
    (advance (i :: outer) c).bind fun inside => tokensFrom inside (run ++ [c]) cs

/-- The tokens of a text. -/
def tokens (cs : List Char) : Option (List Token) :=
  tokensFrom [] [] cs

example : tokens "x.f<T[]>('a b', (p) => \x60b$\x7b\x7b\x7d\x7d\x60 )".toList =
    some (["x", ".", "f", "<", "T", "[", "]", ">", "(", "'a b'", ",", "(", "p", ")", "=>",
      "\x60b$\x7b\x7b\x7d\x7d\x60", ")"].map String.toList) := by
  decide

/-! ### Texts one after the other -/

/-- The first text does not run into the second: a token ends where they meet. -/
def Meets (a b : List Char) : Prop :=
  ∀ c, b.head? = some c → continues a c = false

/-- A character that neither goes on from a token nor is gone on from. -/
def isSeparate (c : Char) : Bool :=
  !isIdentifierPart c && !isOperator c

lemma meets_of_head {a b : List Char} {c : Char} (hb : b.head? = some c)
    (hc : isSeparate c = true) : Meets a b := by
  intro d hd
  obtain rfl := Option.some.inj (hb.symm.trans hd)
  simp only [isSeparate, Bool.and_eq_true, Bool.not_eq_true'] at hc
  simp [continues, sticks, hc.1, hc.2]

lemma meets_of_getLast {a b : List Char} {c : Char} (ha : a.getLast? = some c)
    (hc : isSeparate c = true) : Meets a b := by
  intro d _
  simp only [isSeparate, Bool.and_eq_true, Bool.not_eq_true'] at hc
  simp [continues, sticks, ha, hc.1, hc.2]

lemma continues_append (run : List Char) {cs : List Char} (h : cs ≠ []) (c : Char) :
    continues (run ++ cs) c = continues cs c := by
  unfold continues
  rw [List.getLast?_append_of_ne_nil run h]

lemma Meets.of_append {run cs rest : List Char} (hcs : cs ≠ []) (h : Meets (run ++ cs) rest) :
    Meets cs rest := by
  intro c hc
  rw [← continues_append run hcs]
  exact h c hc

lemma Meets.of_cons {cs rest : List Char} {c : Char} (h : Meets (c :: cs) rest) : Meets cs rest := by
  cases cs with
  | nil => exact fun _ _ => rfl
  | cons d cs => exact Meets.of_append (List.cons_ne_nil d cs) (show Meets ([c] ++ d :: cs) rest from h)

/-- A token ends where the next text begins. -/
lemma tokensFrom_flush {run rest : List Char} (h : Meets run rest) :
    tokensFrom [] run rest = (tokens rest).map (flush run ++ ·) := by
  cases rest with
  | nil => simp [tokens, tokensFrom, flush]
  | cons c cs =>
    have hrun : continues run c = false := h c rfl
    have hnil : continues [] c = false := rfl
    rw [tokens, tokensFrom, tokensFrom, hrun, hnil]
    by_cases hc : isBlank c = true
    · simp [hc, flush]
    · simp only [hc, Bool.false_eq_true, if_false]
      cases opens c <;> simp [flush]

/-- The tokens that a text has are those it has in front of another, if the two do not run into each
other. -/
theorem tokensFrom_append {inside : List Inside} {run cs rest : List Char} {ts : List Token}
    (h : tokensFrom inside run cs = some ts) (hmeet : Meets (run ++ cs) rest) :
    tokensFrom inside run (cs ++ rest) = (tokens rest).map (ts ++ ·) := by
  induction cs generalizing inside run ts with
  | nil =>
    cases inside with
    | nil =>
      obtain rfl := Option.some.inj h
      rw [List.append_nil] at hmeet
      exact tokensFrom_flush hmeet
    | cons i outer => cases h
  | cons c cs ih =>
    have hrun : Meets ((run ++ [c]) ++ cs) rest := by
      rwa [List.append_assoc]
    have htail : Meets (c :: cs) rest := hmeet.of_append (List.cons_ne_nil c cs)
    -- a token is put in front of what the recursion gives
    have hmap (us : List Token) : ((tokens rest).map (us ++ ·)).map (flush run ++ ·) =
        (tokens rest).map ((flush run ++ us) ++ ·) := by
      cases tokens rest <;> simp
    cases inside with
    | cons i outer =>
      rw [tokensFrom] at h
      obtain ⟨inside, hinside, hrest⟩ := Option.bind_eq_some_iff.1 h
      rw [List.cons_append, tokensFrom, hinside]
      exact ih hrest hrun
    | nil =>
      rw [tokensFrom] at h
      rw [List.cons_append, tokensFrom]
      by_cases hgo : continues run c = true
      · rw [if_pos hgo] at h ⊢
        exact ih h hrun
      rw [if_neg hgo] at h ⊢
      by_cases hblank : isBlank c = true
      · rw [if_pos hblank] at h ⊢
        obtain ⟨us, hus, rfl⟩ := Option.map_eq_some_iff.1 h
        rw [ih hus htail.of_cons, hmap]
      · rw [if_neg hblank] at h ⊢
        obtain ⟨inside, hinside, hrest⟩ := Option.bind_eq_some_iff.1 h
        obtain ⟨us, hus, rfl⟩ := Option.map_eq_some_iff.1 hrest
        rw [hinside, Option.bind_some, ih hus htail, hmap]

/-- **Texts that do not run into each other have the tokens of both.** -/
theorem tokens_append {a b : List Char} {ts us : List Token} (ha : tokens a = some ts)
    (hb : tokens b = some us) (h : Meets a b) : tokens (a ++ b) = some (ts ++ us) := by
  rw [tokens, tokensFrom_append ha h, hb]
  rfl

/-! ### Literals -/

lemma tokensFrom_advance {i : Inside} {outer inside : List Inside} {c : Char}
    (h : advance (i :: outer) c = some inside) (run cs : List Char) :
    tokensFrom (i :: outer) run (c :: cs) = tokensFrom inside (run ++ [c]) cs := by
  rw [tokensFrom, h]
  rfl

section Literals

variable {outer : List Inside} {run : List Char}

/-- A string that is escaped ends at its closing quote. -/
theorem tokensFrom_string {quote : Char} (hq : quote = '\'' ∨ quote = '"') (cs rest : List Char) :
    tokensFrom (.string quote :: outer) run (escapeQuoted quote cs ++ quote :: rest) =
      tokensFrom outer (run ++ escapeQuoted quote cs ++ [quote]) rest := by
  have hslash : ¬ '\\' = quote := by
    rcases hq with rfl | rfl <;> decide
  induction cs generalizing run with
  | nil =>
    have hclose : advance (.string quote :: outer) quote = some outer := if_pos rfl
    show tokensFrom (.string quote :: outer) run (quote :: rest) = _
    rw [tokensFrom_advance hclose]
    simp [escapeQuoted]
  | cons c cs ih =>
    -- a backslash and the character after it are passed over together
    have hpair (e : Char) : tokensFrom (.string quote :: outer) run
        ('\\' :: e :: (escapeQuoted quote cs ++ quote :: rest)) =
        tokensFrom outer (run ++ ('\\' :: e :: escapeQuoted quote cs) ++ [quote]) rest := by
      have hback : advance (.string quote :: outer) '\\' =
          some (.escape :: .string quote :: outer) := by
        simp [advance, hslash]
      have hescaped : advance (.escape :: .string quote :: outer) e =
          some (.string quote :: outer) := rfl
      rw [tokensFrom_advance hback, tokensFrom_advance hescaped, ih]
      simp
    rw [escapeQuoted_cons]
    by_cases hc : c = quote
    · rw [if_pos hc]
      exact hpair quote
    · rw [if_neg hc]
      rcases escapeChar_cases c with ⟨e, he, -⟩ | ⟨he, h1, h2, h3⟩
      · rw [he]
        exact hpair e
      · have hchar : advance (.string quote :: outer) c = some (.string quote :: outer) := by
          simp [advance, hc, h1, h2, h3]
        rw [he]
        show tokensFrom _ _ (c :: (escapeQuoted quote cs ++ quote :: rest)) = _
        rw [tokensFrom_advance hchar, ih]
        simp

/-- A dollar sign with no brace after it is text. -/
lemma tokensFrom_dollar {rest : List Char} (h : rest.head? ≠ some '{') :
    tokensFrom (.dollar :: .template :: outer) run rest =
      tokensFrom (.template :: outer) run rest := by
  cases rest with
  | nil => rfl
  | cons c cs =>
    have hc : ¬ c = '{' := fun hc => h (congrArg some hc)
    have hskip : advance (.dollar :: .template :: outer) c = advance (.template :: outer) c :=
      if_neg hc
    rw [tokensFrom, tokensFrom, hskip]

/-- Escaped text is passed over, if no brace follows a dollar sign at its end. -/
theorem tokensFrom_text (cs : List Char) {rest : List Char}
    (h : cs.getLast? = some '$' → rest.head? ≠ some '{') :
    tokensFrom (.template :: outer) run (escapeTemplateChars cs ++ rest) =
      tokensFrom (.template :: outer) (run ++ escapeTemplateChars cs) rest := by
  have hback : advance (.template :: outer) '\\' = some (.escape :: .template :: outer) := rfl
  have hescaped (e : Char) : advance (.escape :: .template :: outer) e = some (.template :: outer) :=
    rfl
  have htext {c : Char} (h1 : c ≠ '\x60') (h2 : c ≠ '\\') (h3 : c ≠ '$') :
      advance (.template :: outer) c = some (.template :: outer) := by
    simp [advance, h1, h2, h3]
  fun_induction escapeTemplateChars cs generalizing run with
  | case1 => simp
  | case2 cs ih =>
    have hlast : cs.getLast? = some '$' → rest.head? ≠ some '{' := by
      intro hcs
      exact h (by simp [List.getLast?_cons, hcs])
    show tokensFrom _ _ ('\\' :: '$' :: '{' :: (escapeTemplateChars cs ++ rest)) = _
    rw [tokensFrom_advance hback, tokensFrom_advance (hescaped '$'),
      tokensFrom_advance (htext (by decide) (by decide) (by decide)), ih hlast]
    simp
  | case3 c cs hopen ih =>
    have hlast : cs.getLast? = some '$' → rest.head? ≠ some '{' := by
      intro hcs
      exact h (by simp [List.getLast?_cons, hcs])
    have hpair (e : Char) : tokensFrom (.template :: outer) run
        ('\\' :: e :: (escapeTemplateChars cs ++ rest)) =
        tokensFrom (.template :: outer) (run ++ '\\' :: e :: escapeTemplateChars cs) rest := by
      rw [tokensFrom_advance hback, tokensFrom_advance (hescaped e), ih hlast]
      simp
    by_cases hc : c = '\x60'
    · rw [if_pos hc]
      exact hpair c
    rw [if_neg hc]
    rcases escapeChar_cases c with ⟨e, he, -⟩ | ⟨he, h2, -⟩
    · rw [he]
      exact hpair e
    rw [he]
    show tokensFrom _ _ (c :: (escapeTemplateChars cs ++ rest)) = _
    by_cases hd : c = '$'
    · -- a dollar sign stands here only if neither the text nor the rest has a brace after it
      subst hd
      have hhead : (escapeTemplateChars cs ++ rest).head? ≠ some '{' := by
        refine head_escapeTemplateChars (fun hhead => ?_) fun hnil => h (by simp [hnil])
        obtain ⟨ds, rfl⟩ := List.head?_eq_some_iff.1 hhead
        exact hopen ds rfl rfl
      have hdollar : advance (.template :: outer) '$' = some (.dollar :: .template :: outer) := rfl
      rw [tokensFrom_advance hdollar, tokensFrom_dollar hhead, ih hlast]
      simp
    · rw [tokensFrom_advance (htext hc h2 hd), ih hlast]
      simp

end Literals

/-! ### Code in template literals -/

/-- Code of a substitution that is passed over, whatever follows it. -/
def Passes (code : List Char) : Prop :=
  ∀ (depth : Nat) (outer : List Inside) (run rest : List Char),
    tokensFrom (.code depth :: outer) run (code ++ rest) =
      tokensFrom (.code depth :: outer) (run ++ code) rest

/-- The inside of a template literal, which the next backquote closes. -/
def Fills (body : List Char) : Prop :=
  ∀ (outer : List Inside) (run rest : List Char),
    tokensFrom (.template :: outer) run (body ++ '\x60' :: rest) =
      tokensFrom outer (run ++ body ++ ['\x60']) rest

namespace Passes

theorem append {a b : List Char} (ha : Passes a) (hb : Passes b) : Passes (a ++ b) := by
  intro depth outer run rest
  rw [List.append_assoc, ha, hb, List.append_assoc]

theorem of_plain {code : List Char} (h : code.all isPlain = true) : Passes code := by
  induction code with
  | nil =>
    intro depth outer run rest
    simp
  | cons c cs ih =>
    obtain ⟨hc, hcs⟩ := Bool.and_eq_true_iff.1 h
    simp only [isPlain, Bool.and_eq_true, bne_iff_ne] at hc
    obtain ⟨⟨⟨⟨⟨h1, h2⟩, h3⟩, h4⟩, h5⟩, h6⟩ := hc
    intro depth outer run rest
    have hchar : advance (.code depth :: outer) c = some (.code depth :: outer) := by
      simp [advance, opens, h1, h2, h3, h4, h5, h6]
    rw [List.cons_append, tokensFrom_advance hchar, ih hcs]
    simp

/-- Braces around code, where they match. -/
theorem braced {code : List Char} (h : Passes code) : Passes ('{' :: code ++ ['}']) := by
  intro depth outer run rest
  have hopen : advance (.code depth :: outer) '{' = some (.code (depth + 1) :: outer) := rfl
  have hclose : advance (.code (depth + 1) :: outer) '}' = some (.code depth :: outer) := rfl
  show tokensFrom _ _ ('{' :: (code ++ ['}'] ++ rest)) = _
  rw [tokensFrom_advance hopen, List.append_assoc, h, List.singleton_append,
    tokensFrom_advance hclose]
  simp

theorem quoteChars (cs : List Char) : Passes (quoteChars cs) := by
  intro depth outer run rest
  have hq := chooseQuote_cases cs
  have hopen : advance (.code depth :: outer) (chooseQuote cs) =
      some (.string (chooseQuote cs) :: .code depth :: outer) := by
    rcases hq with h | h <;> rw [h] <;> rfl
  have hlist : Script.quoteChars cs ++ rest =
      chooseQuote cs :: (escapeQuoted (chooseQuote cs) cs ++ chooseQuote cs :: rest) := by
    simp [Script.quoteChars]
  rw [hlist, tokensFrom_advance hopen, tokensFrom_string hq]
  simp [Script.quoteChars]

theorem template {body : List Char} (h : Fills body) : Passes ('\x60' :: body ++ ['\x60']) := by
  intro depth outer run rest
  have hopen : advance (.code depth :: outer) '\x60' = some (.template :: .code depth :: outer) := rfl
  show tokensFrom _ _ ('\x60' :: (body ++ ['\x60'] ++ rest)) = _
  rw [tokensFrom_advance hopen, List.append_assoc, List.singleton_append, h]
  simp

end Passes

/-- Among texts that follow each other, none ends in a dollar sign where the ones after it begin with a
brace. -/
def isSeamless : List String → Bool
  | [] => true
  | text :: texts =>
    !(text.toList.getLast? = some '$' && (String.join texts).toList.head? = some '{') &&
      isSeamless texts

lemma head_join_escapeTemplate {texts : List String} {rest : List Char}
    (htexts : (String.join texts).toList.head? ≠ some '{') (hrest : rest.head? ≠ some '{') :
    ((String.join (texts.map escapeTemplate)).toList ++ rest).head? ≠ some '{' := by
  induction texts with
  | nil => simpa using hrest
  | cons text texts ih =>
    rw [List.map_cons, String.join_cons, String.toList_append, escapeTemplate, String.toList_ofList,
      List.append_assoc]
    rw [String.join_cons, String.toList_append] at htexts
    refine head_escapeTemplateChars (fun hhead => htexts ?_) fun hnil => ih ?_
    · rw [List.head?_append, hhead]
      rfl
    · rwa [hnil, List.nil_append] at htexts

/-- Texts that follow each other. -/
theorem fills_texts {texts : List String} (h : isSeamless texts = true) :
    Fills (String.join (texts.map escapeTemplate)).toList := by
  induction texts with
  | nil =>
    intro outer run rest
    have hclose : advance (.template :: outer) '\x60' = some outer := rfl
    show tokensFrom _ _ ('\x60' :: rest) = _
    rw [tokensFrom_advance hclose]
    simp
  | cons text texts ih =>
    obtain ⟨hseam, htexts⟩ := Bool.and_eq_true_iff.1 h
    intro outer run rest
    rw [List.map_cons, String.join_cons, String.toList_append, escapeTemplate, String.toList_ofList,
      List.append_assoc, tokensFrom_text, ih htexts]
    · simp
    · intro hdollar
      refine head_join_escapeTemplate (fun hbrace => ?_) (by simp)
      rw [hdollar, hbrace] at hseam
      cases hseam

/-- A text, a substitution, and what follows them. -/
theorem fills_substitution (text : List Char) {code body : List Char} (hcode : Passes code)
    (hbody : Fills body) :
    Fills (escapeTemplateChars text ++ '$' :: '{' :: (code ++ '}' :: body)) := by
  intro outer run rest
  have hdollar : advance (.template :: outer) '$' = some (.dollar :: .template :: outer) := rfl
  have hopen : advance (.dollar :: .template :: outer) '{' =
      some (.code 0 :: .template :: outer) := rfl
  have hclose : advance (.code 0 :: .template :: outer) '}' = some (.template :: outer) := rfl
  have hlist : escapeTemplateChars text ++ '$' :: '{' :: (code ++ '}' :: body) ++ '\x60' :: rest =
      escapeTemplateChars text ++ ('$' :: '{' :: (code ++ ('}' :: (body ++ '\x60' :: rest)))) := by
    simp
  rw [hlist, tokensFrom_text _ (by simp), tokensFrom_advance hdollar, tokensFrom_advance hopen, hcode,
    tokensFrom_advance hclose, hbody]
  simp

/-! ### Single tokens -/

/-- The literal that a quote opens and that is closed at the end of the text. -/
lemma tokens_literal {c : Char} {i : Inside} {cs : List Char} (hopen : opens c = some [i])
    (hblank : isBlank c = false) (hclose : tokensFrom [i] [c] cs = tokensFrom [] (c :: cs) []) :
    tokens (c :: cs) = some [c :: cs] := by
  rw [tokens, tokensFrom, if_neg (by simp [continues]), hblank, hopen]
  simp [hclose, tokensFrom, flush]

/-- **A string literal is a single token.** -/
theorem tokens_quoteString (text : String) :
    tokens (quoteString text).toList = some [(quoteString text).toList] := by
  have hq := chooseQuote_cases text.toList
  rw [quoteString, String.toList_ofList]
  refine tokens_literal (i := .string (chooseQuote text.toList)) ?_ ?_ ?_
  · rcases hq with h | h <;> rw [h] <;> rfl
  · rcases hq with h | h <;> rw [h] <;> rfl
  · exact (tokensFrom_string hq text.toList []).trans (by simp)

/-- **A template literal is a single token.** -/
theorem tokens_template {body : List Char} (h : Fills body) :
    tokens ('\x60' :: body ++ ['\x60']) = some ['\x60' :: body ++ ['\x60']] := by
  refine tokens_literal (i := .template) rfl rfl ?_
  exact (h [] ['\x60'] []).trans (by simp)

/-- A word goes on to its end. -/
lemma tokensFrom_word {c : Char} {cs : List Char} (h : ∀ d ∈ c :: cs, isIdentifierPart d = true)
    (run : List Char) : tokensFrom [] (run ++ [c]) cs = some [run ++ c :: cs] := by
  induction cs generalizing run c with
  | nil => simp [tokensFrom, flush]
  | cons d cs ih =>
    obtain ⟨hc, hcs⟩ := List.forall_mem_cons.1 h
    have hgo : continues (run ++ [c]) d = true := by
      simp [continues, sticks, hc, hcs d (List.mem_cons_self ..)]
    rw [tokensFrom, if_pos hgo, ih hcs]
    simp

/-- **A word is a single token.** -/
theorem tokens_identifier {name : String} (h : isIdentifier name = true) :
    tokens name.toList = some [name.toList] := by
  obtain ⟨c, cs, hname, hstart, hparts⟩ := exists_cons_of_isIdentifier h
  rw [hname] at hparts ⊢
  have hplain := isPlain_of_isIdentifierPart (hparts c (List.mem_cons_self ..))
  have hopen : opens c = some [] := by
    simp only [isPlain, Bool.and_eq_true, bne_iff_ne] at hplain
    simp [opens, hplain]
  rw [tokens, tokensFrom, if_neg (by simp [continues]), isBlank_of_isIdentifierStart hstart, hopen]
  have hword := tokensFrom_word hparts []
  simpa [flush] using hword

end Polyglot.Script
