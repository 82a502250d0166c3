import Polyglot.Proofs.Writing

/-!
# Reading undoes writing

What `sourceText` writes, `Document.read` reads back without a slip.

Each reading function is followed over the written form of what it reads, with any text after it: it
takes exactly the written characters and leaves the cursor behind them. The pieces of a text are
joined by `textBody_pieces`, the lines of a file by `statements_lines`.

* `closeBrace_balanced`: code whose braces balance ends at the brace that follows it;
* `textStep_piece`: one step reads one piece;
* `statement_line`: one statement is read from one line;
* `read_sourceText`: the main statement.
-/

namespace Polyglot

lemma afterAll_append (pos : Position) (cs ds : List Char) :
    pos.afterAll (cs ++ ds) = (pos.afterAll cs).afterAll ds :=
  List.foldl_append

lemma afterAll_cons (pos : Position) (c : Char) (cs : List Char) :
    pos.afterAll (c :: cs) = (pos.after c).afterAll cs := rfl

/-! ### Identifiers -/

lemma isAlpha_range {c : Char} (h : c.isAlpha = true) : 65 ≤ c.toNat ∧ c.toNat ≤ 122 := by
  have hrange : ∀ m n : UInt32, c.val ≥ m ∧ c.val ≤ n → m.toNat ≤ c.toNat ∧ c.toNat ≤ n.toNat :=
    fun _ _ hc => ⟨UInt32.le_iff_toNat_le.1 hc.1, UInt32.le_iff_toNat_le.1 hc.2⟩
  rcases Bool.or_eq_true_iff.1 h with hupper | hlower
  · obtain ⟨hl, hu⟩ := hrange 65 90 (of_decide_eq_true hupper)
    exact ⟨hl, Nat.le_trans hu (by decide)⟩
  · obtain ⟨hl, hu⟩ := Bool.and_eq_true_iff.1 hlower
    obtain ⟨hl, hu⟩ := hrange 97 122 ⟨of_decide_eq_true hl, of_decide_eq_true hu⟩
    exact ⟨Nat.le_trans (by decide) hl, hu⟩

lemma isBlank_of_isIdentifierStart {c : Char} (h : isIdentifierStart c = true) : isBlank c = false := by
  simp only [isIdentifierStart, Bool.or_eq_true, beq_iff_eq] at h
  rcases h with (h | rfl) | rfl
  · have hrange := isAlpha_range h
    simp only [isBlank, Bool.or_eq_false_iff, Bool.and_eq_false_iff, decide_eq_false_iff_not,
      beq_eq_false_iff_ne]
    omega
  · decide
  · decide

namespace Cursor

lemma span_append {p : Char → Bool} {cs tail : List Char} (hcs : ∀ c ∈ cs, p c = true)
    (htail : ∀ c ∈ tail.head?, p c = false) (pos : Position) :
    span p ⟨cs ++ tail, pos⟩ = (cs, ⟨tail, pos.afterAll cs⟩) := by
  have htake : tail.takeWhile p = [] := by
    cases tail with
    | nil => rfl
    | cons c tail => simp [htail c rfl]
  have hdrop : tail.dropWhile p = tail := by
    cases tail with
    | nil => rfl
    | cons c tail => simp [htail c rfl]
  simp only [span, List.takeWhile_append_of_pos hcs, List.dropWhile_append_of_pos hcs, htake, hdrop,
    List.append_nil]

lemma span_of_head {p : Char → Bool} {tail : List Char} (htail : ∀ c ∈ tail.head?, p c = false)
    (pos : Position) : span p ⟨tail, pos⟩ = ([], ⟨tail, pos⟩) :=
  span_append (show ∀ c ∈ [], p c = true by simp) htail pos

lemma skip_of_head {p : Char → Bool} {tail : List Char} (htail : ∀ c ∈ tail.head?, p c = false)
    (pos : Position) : skip p ⟨tail, pos⟩ = ⟨tail, pos⟩ :=
  congrArg Prod.snd (span_of_head htail pos)

lemma skipInline_cons {c : Char} (h : isBlank c = false) (cs : List Char) (pos : Position) :
    skipInline ⟨c :: cs, pos⟩ = ⟨c :: cs, pos⟩ :=
  skip_of_head (by simp [isInlineBlank, h]) pos

lemma skipInline_space {c : Char} (h : isBlank c = false) (cs : List Char) (pos : Position) :
    skipInline ⟨' ' :: c :: cs, pos⟩ = ⟨c :: cs, pos.after ' '⟩ := by
  have hspan := span_append (List.forall_mem_singleton.2 (show isInlineBlank ' ' = true by decide))
    (show ∀ d ∈ (c :: cs).head?, isInlineBlank d = false by simp [isInlineBlank, h]) pos
  exact congrArg Prod.snd hspan

lemma eat_self (c : Char) (cs : List Char) (pos : Position) :
    eat c ⟨c :: cs, pos⟩ = some ⟨cs, pos.after c⟩ :=
  if_pos rfl

lemma eat_of_ne {c d : Char} (h : d ≠ c) (cs : List Char) (pos : Position) :
    eat c ⟨d :: cs, pos⟩ = none :=
  if_neg h

theorem identifier_append {name : String} (hname : isIdentifier name = true) {tail : List Char}
    (htail : ∀ c ∈ tail.head?, isIdentifierPart c = false) (pos : Position) :
    identifier ⟨name.toList ++ tail, pos⟩ = some (name, ⟨tail, pos.afterAll name.toList⟩) := by
  obtain ⟨c, cs, hcs, hstart, hparts⟩ := exists_cons_of_isIdentifier hname
  have hspan := span_append hparts htail pos
  rw [identifier]
  simp only [hspan, String.ofList_toList]
  rw [hcs, List.cons_append]
  simp only [hstart, if_true]

lemma skipInline_identifier {name : String} (hname : isIdentifier name = true) (tail : List Char)
    (pos : Position) : skipInline ⟨name.toList ++ tail, pos⟩ = ⟨name.toList ++ tail, pos⟩ := by
  obtain ⟨c, cs, hcs, hstart, -⟩ := exists_cons_of_isIdentifier hname
  rw [hcs, List.cons_append]
  exact skipInline_cons (isBlank_of_isIdentifierStart hstart) _ pos

lemma eat_identifier {name : String} (hname : isIdentifier name = true) {d : Char}
    (hd : isIdentifierStart d = false) (tail : List Char) (pos : Position) :
    eat d ⟨name.toList ++ tail, pos⟩ = none := by
  obtain ⟨c, cs, hcs, hstart, -⟩ := exists_cons_of_isIdentifier hname
  have hne : c ≠ d := by
    rintro rfl
    rw [hstart] at hd
    cases hd
  rw [hcs, List.cons_append]
  exact eat_of_ne hne _ pos

/-- Code that closes `depth` braces more than it opens ends at the next closing brace. -/
theorem closeBrace_balanced {multiline : Bool} {cs : List Char} (tail : List Char)
    (hline : multiline = true ∨ '\n' ∉ cs) (depth : Nat)
    (hopen : ∀ p, p <+: cs → p.count '}' ≤ depth + p.count '{')
    (hclosed : depth + cs.count '{' = cs.count '}') :
    closeBrace multiline depth (cs ++ '}' :: tail) = some (cs, tail) := by
  induction cs generalizing depth with
  | nil =>
    obtain rfl : depth = 0 := by simpa using hclosed
    simp [closeBrace]
  | cons c cs ih =>
    have hline' : multiline = true ∨ '\n' ∉ cs :=
      hline.imp_right fun h hmem => h (List.mem_cons_of_mem c hmem)
    have hbreak : (c = '\n' && !multiline) = false := by
      rcases hline with h | h
      · simp [h]
      · have hc : ¬ c = '\n' := fun e => h (e ▸ List.mem_cons_self ..)
        simp [hc]
    have hopen' : ∀ p, p <+: cs → (c :: p).count '}' ≤ depth + (c :: p).count '{' := fun p hp =>
      hopen (c :: p) (List.cons_prefix_cons.2 ⟨rfl, hp⟩)
    rw [List.cons_append, closeBrace.eq_def]
    simp only [hbreak, Bool.false_eq_true, if_false]
    by_cases ho : c = '{'
    · subst ho
      have hopen1 : ∀ p, p <+: cs → p.count '}' ≤ depth + 1 + p.count '{' := by
        intro p hp
        have hp' := hopen' p hp
        rw [List.count_cons_of_ne (by decide), List.count_cons_self] at hp'
        omega
      rw [List.count_cons_self, List.count_cons_of_ne (by decide)] at hclosed
      simp [ih hline' (depth + 1) hopen1 (by omega)]
    · by_cases hc : c = '}'
      · subst hc
        -- one brace is open here, or this one would close too much
        have hone : 1 ≤ depth := by simpa using hopen' [] List.nil_prefix
        obtain ⟨depth, rfl⟩ := Nat.exists_eq_add_of_le' hone
        have hopen1 : ∀ p, p <+: cs → p.count '}' ≤ depth + p.count '{' := by
          intro p hp
          have hp' := hopen' p hp
          rw [List.count_cons_self, List.count_cons_of_ne (by decide)] at hp'
          omega
        rw [List.count_cons_of_ne (by decide), List.count_cons_self] at hclosed
        simp [ih hline' depth hopen1 (by omega)]
      · have hopen1 : ∀ p, p <+: cs → p.count '}' ≤ depth + p.count '{' := by
          intro p hp
          simpa [ho, hc] using hopen' p hp
        simp [ho, hc, ih hline' depth hopen1 (by simpa [ho, hc] using hclosed)]

theorem code_append {multiline : Bool} {cs : List Char} (hcs : Balanced cs)
    (hline : multiline = true ∨ '\n' ∉ cs) (tail : List Char) (pos : Position) :
    code multiline ⟨cs ++ '}' :: tail, pos⟩ = some (cs, ⟨tail, pos.afterAll (cs ++ ['}'])⟩) := by
  have h := closeBrace_balanced tail hline 0 (by simpa using hcs.1) (by simpa using hcs.2)
  simp only [code, h, Option.map_some]

end Cursor

namespace Read

/-! ### Between braces -/

lemma isIdentifierPart_brace : isIdentifierPart '}' = false := by decide

theorem reference_written {name : String} (hname : isIdentifier name = true) (tail : List Char)
    (pos : Position) :
    reference ⟨name.toList ++ '}' :: tail, pos⟩ =
      .ok (.ofPiece (.reference name), ⟨tail, pos.afterAll (name.toList ++ ['}'])⟩) := by
  rw [reference, Cursor.identifier_append hname (by simp [isIdentifierPart_brace])]
  simp only [Cursor.skipInline_cons (show isBlank '}' = false by decide), Cursor.eat_self,
    afterAll_append]
  rfl

lemma format_written {f : WrittenFormat} (hf : f.Renderable) (name : String) (tail : List Char)
    (pos : Position) :
    format name ⟨f.code.toList ++ '}' :: tail, pos⟩ =
      .ok (f.code, ⟨tail, pos.afterAll (f.code.toList ++ ['}'])⟩) := by
  obtain ⟨hne, htrim, hline, hbalanced⟩ := hf
  rw [format, Cursor.code_append hbalanced (Or.inr hline)]
  have hnil : ¬ f.code.toList = [] := by simpa using hne
  simp only [htrim, if_neg hnil, String.ofList_toList]

theorem parameterEnd_written {format : Option WrittenFormat} (hf : ∀ f ∈ format, f.Renderable)
    (name : String) (tail : List Char) (pos : Position) :
    parameterEnd name ⟨(format.map WrittenFormat.chars).getD [] ++ '}' :: tail, pos⟩ =
      .ok (format, ⟨tail, pos.afterAll ((format.map WrittenFormat.chars).getD [] ++ ['}'])⟩) := by
  rcases format with _ | ⟨code⟩ | ⟨code⟩
  · rfl
  · have h := format_written (hf _ rfl) name tail (pos.after '|')
    simp only [WrittenFormat.code] at h
    simp [parameterEnd, WrittenFormat.chars, h, afterAll_cons, Except.map]
  · have h := format_written (hf _ rfl) name tail (pos.after ':')
    simp only [WrittenFormat.code] at h
    simp [parameterEnd, WrittenFormat.chars, h, afterAll_cons, Except.map]

lemma head_format (format : Option WrittenFormat) (tail : List Char) :
    ∃ c cs, (format.map WrittenFormat.chars).getD [] ++ '}' :: tail = c :: cs ∧
      isBlank c = false ∧ isIdentifierPart c = false := by
  rcases format with _ | ⟨code⟩ | ⟨code⟩
  · exact ⟨'}', _, rfl, by decide, by decide⟩
  · exact ⟨'|', _, rfl, by decide, by decide⟩
  · exact ⟨':', _, rfl, by decide, by decide⟩

theorem parameter_written {name : String} {format : Option WrittenFormat}
    (h : (Piece.parameter name format).Renderable) (tail : List Char) (pos : Position) :
    parameter ⟨name.toList ++ ((format.map WrittenFormat.chars).getD [] ++ '}' :: tail), pos⟩ =
      .ok (.ofPiece (.parameter name format), ⟨tail, pos.afterAll (name.toList ++
        ((format.map WrittenFormat.chars).getD [] ++ ['}']))⟩) := by
  obtain ⟨hname, hreserved, hf⟩ := h
  obtain ⟨c, cs, hcs, hblank, hpart⟩ := head_format format tail
  have hend := parameterEnd_written hf name tail (pos.afterAll name.toList)
  rw [hcs] at hend
  rw [parameter, hcs, Cursor.identifier_append hname (by simp [hpart])]
  simp only [Cursor.skipInline_cons hblank, hend, Except.map, nameSlips, hreserved,
    Bool.false_eq_true, if_false, afterAll_append]
  rfl

/-! ### A text -/

lemma ne_quote {c : Char} (hs : c ≠ '\'') (hd : c ≠ '"') (q : Quote) : ¬ c = q.char := by
  cases q with
  | single => exact hs
  | double => exact hd

lemma textStep_escape (q : Quote) {e v : Char} (he : e ≠ '\n') (hv : unescape e = some v)
    (start : Position) (tail : List Char) (pos : Position) :
    textStep q.char start ⟨'\\' :: e :: tail, pos⟩ =
      .ok (some (.ofPiece (.char v)), ⟨tail, pos.afterAll ['\\', e]⟩) := by
  have hq : ¬ '\\' = q.char := ne_quote (by decide) (by decide) q
  simp [textStep, hq, he, escaped, hv, afterAll_cons]
  rfl

lemma textStep_open (q : Quote) (start : Position) (tail : List Char) (pos : Position) :
    textStep q.char start ⟨'{' :: '{' :: tail, pos⟩ =
      .ok (some (.ofPiece (.char '{')), ⟨tail, pos.afterAll ['{', '{']⟩) := by
  have hq : ¬ '{' = q.char := ne_quote (by decide) (by decide) q
  simp [textStep, hq, Cursor.eat_self]
  rfl

lemma textStep_placeholder (q : Quote) (start : Position) {cs : List Char} {pos : Position}
    (h : Cursor.eat '{' ⟨cs, pos.after '{'⟩ = none) :
    textStep q.char start ⟨'{' :: cs, pos⟩ =
      (placeholder ⟨cs, pos.after '{'⟩).map (fun r => (some r.1, r.2)) := by
  have hq : ¬ '{' = q.char := ne_quote (by decide) (by decide) q
  simp [textStep, hq, h]

lemma textStep_close (q : Quote) (start : Position) (tail : List Char) (pos : Position) :
    textStep q.char start ⟨'}' :: '}' :: tail, pos⟩ =
      .ok (some (.ofPiece (.char '}')), ⟨tail, pos.afterAll ['}', '}']⟩) := by
  have hq : ¬ '}' = q.char := ne_quote (by decide) (by decide) q
  simp [textStep, hq, Cursor.eat_self]
  rfl

theorem textStep_char (q : Quote) (c : Char) (start : Position) (tail : List Char) (pos : Position) :
    textStep q.char start ⟨q.escape c ++ tail, pos⟩ =
      .ok (some (.ofPiece (.char c)), ⟨tail, pos.afterAll (q.escape c)⟩) := by
  unfold Quote.escape
  split
  · rename_i hc
    subst hc
    exact textStep_escape q (by decide) (by decide) start tail pos
  split
  · rename_i hc
    subst hc
    exact textStep_escape q (by cases q <;> decide) (by cases q <;> decide) start tail pos
  split
  · rename_i hc
    subst hc
    exact textStep_escape q (by decide) (by decide) start tail pos
  split
  · rename_i hc
    rcases Bool.or_eq_true_iff.1 hc with hc | hc
    · obtain rfl := of_decide_eq_true hc
      exact textStep_open q start tail pos
    · obtain rfl := of_decide_eq_true hc
      exact textStep_close q start tail pos
  · rename_i hslash hquote hline hbrace
    simp only [Bool.or_eq_true, decide_eq_true_eq, not_or] at hbrace
    simp [textStep, hslash, hquote, hline, hbrace.1, hbrace.2]
    rfl

lemma placeholder_parameter {name : String} {format : Option WrittenFormat}
    (h : (Piece.parameter name format).Renderable) (tail : List Char) (pos : Position) :
    placeholder ⟨name.toList ++ ((format.map WrittenFormat.chars).getD [] ++ '}' :: tail), pos⟩ =
      .ok (.ofPiece (.parameter name format), ⟨tail, pos.afterAll (name.toList ++
        ((format.map WrittenFormat.chars).getD [] ++ ['}']))⟩) := by
  rw [← parameter_written h tail pos, placeholder, Cursor.skipInline_identifier h.1,
    Cursor.eat_identifier h.1 (by decide)]

/-- **One step reads one piece.** -/
theorem textStep_piece (q : Quote) {p : Piece} (hp : p.Renderable) (start : Position)
    (tail : List Char) (pos : Position) :
    textStep q.char start ⟨p.chars q ++ tail, pos⟩ =
      .ok (some (.ofPiece p), ⟨tail, pos.afterAll (p.chars q)⟩) := by
  cases p with
  | char c => exact textStep_char q c start tail pos
  | parameter name format =>
    have hinside := placeholder_parameter hp tail (pos.after '{')
    have hlist : (Piece.parameter name format).chars q ++ tail =
        '{' :: (name.toList ++ ((format.map WrittenFormat.chars).getD [] ++ '}' :: tail)) := by
      simp [Piece.chars]
    rw [hlist, textStep_placeholder q start (Cursor.eat_identifier hp.1 (by decide) _ _), hinside]
    rfl
  | reference name =>
    have hinside := reference_written hp tail ((pos.after '{').after '@')
    have hlist : (Piece.reference name).chars q ++ tail =
        '{' :: '@' :: (name.toList ++ '}' :: tail) := by
      simp [Piece.chars]
    rw [hlist, textStep_placeholder q start (Cursor.eat_of_ne (by decide) _ _)]
    simp only [placeholder, Cursor.skipInline_cons (show isBlank '@' = false by decide),
      Cursor.eat_self, hinside]
    rfl

lemma textBody_closed {quote : Char} {start : Position} {cur next : Cursor}
    (h : textStep quote start cur = .ok (none, next)) :
    textBody quote start cur = .ok (⟨[], []⟩, next) := by
  rw [textBody.eq_def]
  split <;> rename_i he <;> rw [h] at he <;> cases he
  rfl

lemma textBody_found {quote : Char} {start : Position} {cur next : Cursor} {found : Text}
    (h : textStep quote start cur = .ok (some found, next)) :
    textBody quote start cur =
      (textBody quote start next).map (fun r => (found.before r.1, r.2)) := by
  rw [textBody.eq_def]
  split <;> rename_i he <;> rw [h] at he <;> cases he
  rfl

/-- **A text is read piece by piece.** -/
theorem textBody_pieces (q : Quote) {pieces : List Piece} (hp : ∀ p ∈ pieces, p.Renderable)
    (start : Position) (tail : List Char) (pos : Position) :
    ∃ after, textBody q.char start ⟨pieces.flatMap (Piece.chars q) ++ q.char :: tail, pos⟩ =
      .ok (⟨pieces, []⟩, ⟨tail, after⟩) := by
  induction pieces generalizing pos with
  | nil => exact ⟨pos.after q.char, textBody_closed (if_pos rfl)⟩
  | cons p pieces ih =>
    have hstep := textStep_piece q (hp p (List.mem_cons_self ..)) start
      (pieces.flatMap (Piece.chars q) ++ q.char :: tail) pos
    obtain ⟨after, hrest⟩ := ih (fun p' hp' => hp p' (List.mem_cons_of_mem _ hp'))
      (pos.afterAll (p.chars q))
    refine ⟨after, ?_⟩
    rw [List.flatMap_cons, List.append_assoc, textBody_found hstep, hrest]
    rfl

/-! ### A line -/

lemma text_pieces (q : Quote) {pieces : List Piece} (hp : ∀ p ∈ pieces, p.Renderable)
    (tail : List Char) (pos : Position) :
    ∃ after, text ⟨q.char :: (pieces.flatMap (Piece.chars q) ++ q.char :: tail), pos⟩ =
      .ok (⟨pieces, []⟩, ⟨tail, after⟩) := by
  have hquote : (q.char = '\'' || q.char = '"') = true := by cases q <;> decide
  obtain ⟨after, h⟩ := textBody_pieces q hp pos tail (pos.after q.char)
  exact ⟨after, by simp only [text, hquote, if_true, h]⟩

lemma lineEnd_line (fault : Char → SyntaxError) (tail : List Char) (pos : Position) :
    lineEnd fault ⟨'\n' :: tail, pos⟩ = .ok ⟨'\n' :: tail, pos⟩ := by
  have hskip : Cursor.skipInline ⟨'\n' :: tail, pos⟩ = ⟨'\n' :: tail, pos⟩ :=
    Cursor.skip_of_head (by simp [isInlineBlank]) pos
  simp [lineEnd, hskip]

lemma key_written {m : WrittenMessage} (hkey : isIdentifier m.key = true) (tail : List Char)
    (pos : Position) :
    key ⟨m.keyChars ++ ' ' :: tail, pos⟩ =
      .ok ((m.key, m.visibility), ⟨' ' :: tail, pos.afterAll m.keyChars⟩) := by
  unfold WrittenMessage.keyChars
  cases m.visibility with
  | exposed =>
    have hspace : isIdentifierPart ' ' = false := by decide
    rw [key, Cursor.eat_identifier hkey (by decide)]
    simp only [Cursor.identifier_append hkey (show ∀ d ∈ (' ' :: tail).head?,
      isIdentifierPart d = false by simp [hspace])]
  | hidden =>
    have hparen : isIdentifierPart ')' = false := by decide
    have hlist : '(' :: (m.key.toList ++ [')']) ++ ' ' :: tail =
        '(' :: (m.key.toList ++ ')' :: ' ' :: tail) := by simp
    rw [key]
    simp only [hlist, Cursor.eat_self, Cursor.skipInline_identifier hkey,
      Cursor.identifier_append hkey (show ∀ d ∈ (')' :: ' ' :: tail).head?,
        isIdentifierPart d = false by simp [hparen]),
      Cursor.skipInline_cons (show isBlank ')' = false by decide), afterAll_cons, afterAll_append]
    rfl

theorem message_line {m : WrittenMessage} (hm : m.Renderable) (tail : List Char) (pos : Position) :
    ∃ after, message ⟨m.chars ++ '\n' :: tail, pos⟩ =
      .ok (.message m.key m.visibility ⟨m.pieces, []⟩, ⟨'\n' :: tail, after⟩) := by
  have hlist : m.chars ++ '\n' :: tail = m.keyChars ++ ' ' :: '=' :: ' ' :: m.quote.char ::
      (m.pieces.flatMap (Piece.chars m.quote) ++ m.quote.char :: '\n' :: tail) := by
    simp [WrittenMessage.chars]
  have hquote : isBlank m.quote.char = false := by cases m.quote <;> decide
  obtain ⟨after, htext⟩ := text_pieces m.quote hm.2.1 ('\n' :: tail)
    ((((pos.afterAll m.keyChars).after ' ').after '=').after ' ')
  refine ⟨after, ?_⟩
  rw [hlist, message, key_written hm.1]
  simp only [Cursor.skipInline_space (show isBlank '=' = false by decide), Cursor.eat_self,
    Cursor.skipInline_space hquote, htext, lineEnd_line, Except.map]

lemma trim_padded (cs : List Char) : trim (' ' :: (cs ++ [' '])) = trim cs := by
  have hblank : isBlank ' ' = true := by decide
  unfold trim
  rw [List.dropWhile_cons_of_pos hblank, List.dropWhile_append]
  split
  · rename_i hempty
    rw [List.isEmpty_iff.1 hempty]
    rfl
  · rw [List.reverse_append, List.reverse_singleton, List.singleton_append,
      List.dropWhile_cons_of_pos hblank]

lemma balanced_padded {cs : List Char} (h : Balanced cs) : Balanced (' ' :: (cs ++ [' '])) := by
  obtain ⟨hopen, hclosed⟩ := h
  have hinside : ∀ p, p <+: cs ++ [' '] → p.count '}' ≤ p.count '{' := by
    intro p hp
    rcases List.prefix_concat_iff.1 hp with rfl | hp
    · simp [hclosed]
    · exact hopen p hp
  refine ⟨?_, by simp [hclosed]⟩
  intro p hp
  rcases List.prefix_cons_iff.1 hp with rfl | ⟨inner, rfl, hinner⟩
  · simp
  · simpa using hinside inner hinner

theorem header_line {code : String} (hcode : (Line.header code).Renderable) (start : Position)
    (tail : List Char) (pos : Position) :
    ∃ after, header false start ⟨' ' :: (code.toList ++ [' ', '}']) ++ '\n' :: tail, pos⟩ =
      .ok (.header code, ⟨'\n' :: tail, after⟩) := by
  have hlist : ' ' :: (code.toList ++ [' ', '}']) ++ '\n' :: tail =
      ' ' :: (code.toList ++ [' ']) ++ '}' :: '\n' :: tail := by simp
  refine ⟨pos.afterAll (' ' :: (code.toList ++ [' ']) ++ ['}']), ?_⟩
  rw [hlist, header, Cursor.code_append (balanced_padded hcode.2) (Or.inl rfl)]
  simp only [Bool.false_eq_true, if_false, lineEnd_line, Except.map, trim_padded, hcode.1,
    String.ofList_toList]

theorem directive_line (d : Directive) (tail : List Char) (pos : Position) :
    ∃ after, directive ⟨d.name.toList ++ '\n' :: tail, pos⟩ =
      .ok (.directive d.name [], ⟨'\n' :: tail, after⟩) := by
  have hname : isIdentifier d.name = true := by cases d; decide
  refine ⟨pos.afterAll d.name.toList, ?_⟩
  have hline : isIdentifierPart '\n' = false := by decide
  rw [directive, Cursor.identifier_append hname (show ∀ c ∈ ('\n' :: tail).head?,
    isIdentifierPart c = false by simp [hline])]
  have hspan := Cursor.span_of_head
    (show ∀ c ∈ ('\n' :: tail).head?, (c != '\n' && c != '#') = false by simp)
    (pos.afterAll d.name.toList)
  have hskip : Cursor.skipLine ⟨'\n' :: tail, pos.afterAll d.name.toList⟩ =
      ⟨'\n' :: tail, pos.afterAll d.name.toList⟩ :=
    Cursor.skip_of_head (by simp) _
  simp only [hspan, hskip]
  rfl

lemma head_message {m : WrittenMessage} (hkey : isIdentifier m.key = true) :
    ∃ c cs, m.chars = c :: cs ∧ (c = '(' ∨ isIdentifierStart c = true) := by
  obtain ⟨c, cs, hcs, hstart, -⟩ := exists_cons_of_isIdentifier hkey
  unfold WrittenMessage.chars WrittenMessage.keyChars
  cases m.visibility with
  | exposed =>
    rw [hcs]
    exact ⟨c, _, rfl, Or.inr hstart⟩
  | hidden => exact ⟨'(', _, rfl, Or.inl rfl⟩

/-- **One statement is read from one line.** -/
theorem statement_line {l : Line} (hl : l.Renderable) {seen : Bool}
    (hseen : seen = true → l.header? = none) (tail : List Char) (pos : Position) :
    ∃ c cs after, l.chars = c :: cs ∧ isBlank c = false ∧
      statement seen ⟨c :: (cs ++ '\n' :: tail), pos⟩ c ⟨cs ++ '\n' :: tail, pos.after c⟩ =
        .ok (l.statement, ⟨'\n' :: tail, after⟩) := by
  cases l with
  | header code =>
    obtain rfl : seen = false := by
      cases seen with
      | false => rfl
      | true => cases hseen rfl
    obtain ⟨after, h⟩ := header_line hl pos tail ((pos.after '@').after '{')
    refine ⟨'@', _, after, rfl, by decide, ?_⟩
    simp only [statement, List.cons_append, Cursor.eat_self]
    exact h
  | directive d =>
    obtain ⟨after, h⟩ := directive_line d tail (pos.after '@')
    have hchars : (Line.directive d).chars = '@' :: d.name.toList := by
      simp [Line.chars, Directive.written]
    refine ⟨'@', _, after, hchars, by decide, ?_⟩
    have hbrace : Cursor.eat '{' ⟨d.name.toList ++ '\n' :: tail, pos.after '@'⟩ = none := by
      cases d
      rfl
    simp only [statement, hbrace, h]
    rfl
  | message m =>
    obtain ⟨after, h⟩ := message_line hl tail pos
    obtain ⟨c, cs, hchars, hstart⟩ := head_message hl.1
    have hblank : isBlank c = false := by
      rcases hstart with rfl | hstart
      · decide
      · exact isBlank_of_isIdentifierStart hstart
    have hcomment : ¬ c = '#' := by
      rintro rfl
      revert hstart
      decide
    have hat : ¬ c = '@' := by
      rintro rfl
      revert hstart
      decide
    have hfirst : (c = '(' || isIdentifierStart c) = true := by simpa using hstart
    rw [hchars, List.cons_append] at h
    refine ⟨c, cs, after, hchars, hblank, ?_⟩
    simp only [statement, if_neg hcomment, if_neg hat, hfirst, if_true, h]
    rfl

/-! ### The lines of a file -/

lemma statements_nil {seen : Bool} {cur : Cursor} (h : (cur.skip isBlank).rest = []) :
    statements seen cur = .ok [] := by
  rw [statements.eq_def]
  split
  · rfl
  · rename_i he
    rw [h] at he
    cases he

lemma statements_cons {seen : Bool} {cur next : Cursor} {c : Char} {cs : List Char} {pos : Position}
    {s : Statement} (hskip : cur.skip isBlank = ⟨c :: cs, pos⟩)
    (hs : statement seen ⟨c :: cs, pos⟩ c ⟨cs, pos.after c⟩ = .ok (s, next)) :
    statements seen cur =
      (statements (seen || s.isHeader) next).map (fun rest => ⟨s, pos⟩ :: rest) := by
  rw [statements.eq_def]
  split
  · rename_i hrest
    rw [hskip] at hrest
    cases hrest
  · rename_i hrest
    have hcons := hrest
    rw [hskip] at hcons
    cases hcons
    dsimp only
    split <;> rename_i he <;> rw [hskip, hs] at he <;> cases he
    rw [hskip]

lemma filterMap_cons_toList {α β : Type} (f : α → Option β) (a : α) (as : List α) :
    (a :: as).filterMap f = (f a).toList ++ as.filterMap f := by
  rw [List.filterMap_eq_flatMap_toList, List.filterMap_eq_flatMap_toList, List.flatMap_cons]

lemma isHeader_statement (l : Line) : l.statement.isHeader = l.header?.isSome := by
  cases l <;> rfl

/-- **The statements of a file are those of its lines**, whatever blanks stand before them. -/
theorem statements_lines {lines : List Line} (hl : ∀ l ∈ lines, l.Renderable) (seen : Bool)
    (hseen : seen.toNat + (lines.filterMap Line.header?).length ≤ 1) {blanks : List Char}
    (hb : ∀ c ∈ blanks, isBlank c = true) (pos : Position) :
    ∃ ss, statements seen ⟨blanks ++ linesChars lines, pos⟩ = .ok ss ∧
      ss.map (·.value) = lines.map Line.statement := by
  induction lines generalizing seen blanks pos with
  | nil =>
    have hspan := Cursor.span_append hb (show ∀ c ∈ ([] : List Char).head?, isBlank c = false by simp)
      pos
    refine ⟨[], statements_nil ?_, rfl⟩
    exact congrArg (fun r => r.2.rest) hspan
  | cons l lines ih =>
    rw [filterMap_cons_toList, List.length_append] at hseen
    have hfirst : seen = true → l.header? = none := by
      rintro rfl
      cases hh : l.header? with
      | none => rfl
      | some code =>
        simp only [hh, Option.toList_some, List.length_singleton, Bool.toNat_true] at hseen
        omega
    obtain ⟨c, cs, after, hchars, hblank, hs⟩ := statement_line (hl l (List.mem_cons_self ..)) hfirst
      (linesChars lines) (pos.afterAll blanks)
    have hlist : blanks ++ linesChars (l :: lines) =
        blanks ++ c :: (cs ++ '\n' :: linesChars lines) := by
      simp [linesChars, hchars]
    have hskip : Cursor.skip isBlank ⟨blanks ++ linesChars (l :: lines), pos⟩ =
        ⟨c :: (cs ++ '\n' :: linesChars lines), pos.afterAll blanks⟩ := by
      rw [hlist, Cursor.skip, Cursor.span_append hb (by simp [hblank])]
    have hseen' : (seen || l.statement.isHeader).toNat + (lines.filterMap Line.header?).length ≤ 1 := by
      rw [isHeader_statement]
      cases seen <;> cases hh : l.header? <;> simp [hh] at hseen ⊢ <;> omega
    obtain ⟨ss, hss, hvalues⟩ := ih (fun l' hl' => hl l' (List.mem_cons_of_mem _ hl')) _ hseen'
      (List.forall_mem_singleton.2 (show isBlank '\n' = true by decide)) after
    refine ⟨⟨l.statement, pos.afterAll blanks⟩ :: ss, ?_, ?_⟩
    · rw [statements_cons hskip hs]
      exact congrArg (Except.map _) hss
    · rw [List.map_cons, hvalues, List.map_cons]

end Read

/-! ### The document -/

/-- The key and the message of a definition. -/
def Definition.entry (d : Definition) : String × Message :=
  (d.key, ⟨d.visibility, d.content, d.parameters⟩)

/-- A draft without slips says these headers, directives and messages. -/
structure Draft.Says (d : Draft) (headers : List String) (directives : List Directive)
    (entries : List (String × Message)) : Prop where
  slips : d.slips = []
  header : d.document.header.toList = headers
  directives : d.document.directives = directives
  definitions : d.document.definitions.map Definition.entry = entries

theorem Draft.Says.add {d : Draft} {headers : List String} {directives : List Directive}
    {entries : List (String × Message)} (h : d.Says headers directives entries) {l : Line}
    (hl : l.Renderable) (hh : (headers ++ l.header?.toList).length ≤ 1)
    (hd : (directives ++ l.directive?.toList).length ≤ 1) (pos : Position) :
    (d.add ⟨l.statement, pos⟩).Says (headers ++ l.header?.toList)
      (directives ++ l.directive?.toList)
      (entries ++ (l.message?.map WrittenMessage.entry).toList) := by
  obtain ⟨hslips, hheader, hdirectives, hdefinitions⟩ := h
  cases l with
  | header code =>
    -- there was no header before
    obtain rfl : headers = [] := by
      simpa [Line.header?] using hh
    exact ⟨hslips, rfl, hdirectives.trans (List.append_nil _).symm,
      hdefinitions.trans (List.append_nil _).symm⟩
  | directive dir =>
    obtain rfl : directives = [] := by
      simpa [Line.directive?] using hd
    have hadd : d.add ⟨(Line.directive dir).statement, pos⟩ =
        { d with document := { d.document with directives := [dir] } } := by
      simp only [Draft.add, Line.statement, Draft.addDirective, hdirectives]
      cases dir
      rfl
    rw [hadd]
    exact ⟨hslips, hheader.trans (List.append_nil _).symm, rfl,
      hdefinitions.trans (List.append_nil _).symm⟩
  | message m =>
    have hentry : Definition.entry ⟨m.key, m.visibility, (Text.mk m.pieces []).content,
        (Text.mk m.pieces []).parameters, pos⟩ = m.entry := by
      simp only [Definition.entry, WrittenMessage.entry, Text.content, Text.parameters,
        WrittenMessage.parameters, WrittenMessage.pieces, content_pieces, parameters_pieces,
        ParameterSet.ofList_eq_firstMentions, hl.2.2]
    refine ⟨by simp [Draft.add, Line.statement, hslips], hheader.trans (List.append_nil _).symm,
      hdirectives.trans (List.append_nil _).symm, ?_⟩
    show (d.document.definitions ++ [_]).map Definition.entry = entries ++ [m.entry]
    rw [List.map_append, hdefinitions, List.map_singleton, hentry]

theorem Draft.Says.addAll {lines : List Line} (hl : ∀ l ∈ lines, l.Renderable) {d : Draft}
    {headers : List String} {directives : List Directive} {entries : List (String × Message)}
    (h : d.Says headers directives entries)
    (hh : (headers ++ lines.filterMap Line.header?).length ≤ 1)
    (hd : (directives ++ lines.filterMap Line.directive?).length ≤ 1) {ss : List (At Statement)}
    (hss : ss.map (·.value) = lines.map Line.statement) :
    (ss.foldl Draft.add d).Says (headers ++ lines.filterMap Line.header?)
      (directives ++ lines.filterMap Line.directive?)
      (entries ++ (lines.filterMap Line.message?).map WrittenMessage.entry) := by
  induction lines generalizing d headers directives entries ss with
  | nil =>
    obtain rfl : ss = [] := by simpa using hss
    simpa using h
  | cons l lines ih =>
    obtain ⟨⟨value, pos⟩, rest, rfl, hvalue, hrest⟩ := List.map_eq_cons_iff.1 hss
    obtain rfl : value = l.statement := hvalue
    simp only [Read.filterMap_cons_toList, List.map_append, ← List.append_assoc] at hh hd ⊢
    have hfirst : (headers ++ l.header?.toList).length ≤ 1 ∧
        (directives ++ l.directive?.toList).length ≤ 1 := by
      simp only [List.length_append] at hh hd ⊢
      omega
    have hstep := h.add (hl l (List.mem_cons_self ..)) hfirst.1 hfirst.2 pos
    rw [Option.toList_map] at hstep
    exact ih (fun l' hl' => hl l' (List.mem_cons_of_mem _ hl')) hstep hh hd hrest

lemma dropMark_linesChars {lines : List Line} (hl : ∀ l ∈ lines, l.Renderable) :
    dropMark (linesChars lines) = linesChars lines := by
  cases lines with
  | nil => rfl
  | cons l lines =>
    obtain ⟨c, cs, after, hchars, -, hs⟩ := Read.statement_line (hl l (List.mem_cons_self ..))
      (show false = true → l.header? = none by simp) [] .start
    -- no statement begins with the mark
    have hmark : ¬ c = byteOrderMark := by
      rintro rfl
      cases hs
    rw [linesChars, List.flatMap_cons, hchars, List.cons_append, List.cons_append, dropMark,
      if_neg hmark]

/-- **Reading undoes writing.** A file whose lines can be written is read without a slip, and gives
back the header, the directive and the messages in their order, whichever quotes they were written
in. -/
theorem read_sourceText {lines : List Line} (h : Renderable lines) :
    ∃ draft, Document.read (sourceText lines) = .ok draft ∧ draft.slips = [] ∧
      draft.document.header.toList = lines.filterMap Line.header? ∧
      draft.document.directives = lines.filterMap Line.directive? ∧
      draft.document.definitions.map Definition.entry =
        (lines.filterMap Line.message?).map WrittenMessage.entry := by
  obtain ⟨hl, hheaders, hdirectives⟩ := h
  obtain ⟨ss, hss, hvalues⟩ := Read.statements_lines hl false (by simpa using hheaders)
    (show ∀ c ∈ [], isBlank c = true by simp) .start
  have hsays : Draft.Says {} [] [] [] := ⟨rfl, rfl, rfl, rfl⟩
  have hdraft := hsays.addAll hl (by simpa using hheaders) (by simpa using hdirectives) hvalues
  refine ⟨ss.foldl Draft.add {}, ?_, hdraft.slips, hdraft.header, hdraft.directives, ?_⟩
  · rw [Document.read, sourceText, String.toList_ofList, dropMark_linesChars hl]
    exact congrArg (Except.map _) hss
  · exact hdraft.definitions

/-- Lines in which texts, braces, quotes and code meet. -/
def braceLines : List Line :=
  [.header "import \x7b a \x7d from 'b';\nconst c = \x7b\x7d;",
    .message ⟨"total", .exposed, [.text "it's \x7b",
      .parameter "sum" (some (.shorthand "number(\x7b a: '\x7d\x7b' \x7d)")), .text "\x7d \\ \"ok\"\n",
      .reference "unit", .parameter "sum" (some (.explicit "up"))], .single⟩,
    .directive .reference,
    .message ⟨"unit", .hidden, [.text "it's \x7b\x7d\""], .double⟩]

theorem read_sourceText_braceLines :
    Renderable braceLines ∧
    ∃ draft, Document.read (sourceText braceLines) = .ok draft ∧ draft.slips = [] ∧
      draft.document.header.toList = braceLines.filterMap Line.header? ∧
      draft.document.directives = braceLines.filterMap Line.directive? ∧
      draft.document.definitions.map Definition.entry =
        (braceLines.filterMap Line.message?).map WrittenMessage.entry :=
  ⟨by decide, read_sourceText (by decide)⟩

end Polyglot
