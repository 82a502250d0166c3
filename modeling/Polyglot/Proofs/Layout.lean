import Polyglot.Proofs.Tokens
import Polyglot.Proofs.Unbroken

/-!
# Layout never changes the code

A list is printed on one line or with one item below the other, as the printer has it, and each list
for itself. What comes of it has the same tokens, but for the comma after the last item of a broken
list.

* `dropTrailingCommas`, `Reduces`: tokens without the commas right before a closing bracket;
* `Reads`: the tokens of lines, which gluing and indenting keep;
* `Spells`: what a block of lines says;
* `spells_list`: a list says the same on one line and on many;
* `passes_inline`: what a template literal holds is one token with it;
* `steady_block`: an expression says the same under every printer;
* `tokens_printed`: the main statement, and `tokens_printed_seam`, where it ends.
-/

namespace Polyglot.Script

/-! ### Trailing commas -/

def comma : Token := [',']

/-- The tokens that close lists and objects. -/
def isClosing (t : Token) : Bool :=
  t == [']'] || t == ['}']

/-- The tokens without the commas that stand right before a closing bracket or brace. -/
def dropTrailingCommas : List Token → List Token
  | [] => []
  | t :: ts =>
    if t = comma ∧ ts.head?.any isClosing then dropTrailingCommas ts
    else t :: dropTrailingCommas ts

/-- Without trailing commas, the first tokens are the second, whatever follows them. -/
def Reduces (ts us : List Token) : Prop :=
  ∀ rest, dropTrailingCommas (ts ++ rest) = us ++ dropTrailingCommas rest

/-- There are tokens, and the first of them closes nothing. -/
def Begins (us : List Token) : Prop :=
  ∃ t rest, us = t :: rest ∧ isClosing t = false

lemma Begins.append {us : List Token} (h : Begins us) (vs : List Token) : Begins (us ++ vs) := by
  obtain ⟨t, rest, rfl, ht⟩ := h
  exact ⟨t, rest ++ vs, rfl, ht⟩

lemma dropTrailingCommas_cons {t : Token} {ts : List Token}
    (h : t = comma → ts.head?.any isClosing = false) :
    dropTrailingCommas (t :: ts) = t :: dropTrailingCommas ts := by
  rw [dropTrailingCommas, if_neg]
  rintro ⟨ht, hts⟩
  rw [h ht] at hts
  cases hts

namespace Reduces

lemma append {ts us ts' us' : List Token} (h : Reduces ts us) (h' : Reduces ts' us') :
    Reduces (ts ++ ts') (us ++ us') := by
  intro rest
  rw [List.append_assoc, h, h', List.append_assoc]

lemma of_all {us : List Token} (h : us.all (· != comma) = true) : Reduces us us := by
  induction us with
  | nil => exact fun rest => rfl
  | cons u us ih =>
    obtain ⟨hu, hus⟩ := Bool.and_eq_true_iff.1 h
    intro rest
    rw [List.cons_append, dropTrailingCommas_cons fun hc => absurd hc (bne_iff_ne.1 hu), ih hus]
    rfl

/-- A comma in front of what begins a new item stays. -/
lemma comma {ts us : List Token} (h : Reduces ts us) (hus : Begins us) :
    Reduces (comma :: ts) (comma :: us) := by
  have hhead (rest : List Token) : (ts ++ rest).head?.any isClosing = false := by
    obtain ⟨u, us, rfl, hu⟩ := hus
    have hnil : dropTrailingCommas ts = u :: us := by simpa [dropTrailingCommas] using h []
    cases ts with
    | nil => cases hnil
    | cons t ts =>
      by_contra hclose
      have ht : isClosing t = true := Bool.not_eq_false _ ▸ hclose
      rw [dropTrailingCommas_cons (by rintro rfl; cases ht)] at hnil
      rw [(List.cons.inj hnil).1, hu] at ht
      cases ht
  intro rest
  rw [List.cons_append, dropTrailingCommas_cons fun _ => hhead rest, h]
  rfl

/-- A comma in front of a closing bracket goes. -/
lemma trailing {t : Token} (h : isClosing t = true) : Reduces [Script.comma, t] [t] := by
  intro rest
  have hne : t ≠ Script.comma := by
    rintro rfl
    cases h
  show dropTrailingCommas (Script.comma :: t :: rest) = _
  rw [dropTrailingCommas, if_pos ⟨rfl, h⟩, dropTrailingCommas_cons fun hc => absurd hc hne]
  rfl

end Reduces

/-- The tokens of items, with a comma between each and the next. -/
def joined : List (List Token) → List Token
  | [] => []
  | [us] => us
  | us :: uss => us ++ comma :: joined uss

lemma begins_joined {us : List Token} (h : Begins us) (uss : List (List Token)) :
    Begins (joined (us :: uss)) := by
  cases uss with
  | nil => exact h
  | cons vs uss => exact h.append _

/-! ### Tokens of lines -/

/-- Lines and their tokens. No token goes on from one line to the next. -/
inductive Reads : List String → List Token → Prop where
  | nil : Reads [] []
  | cons {line : String} {lines : List String} {ts us : List Token}
      (hline : tokens line.toList = some ts) (hlines : Reads lines us) :
      Reads (line :: lines) (ts ++ us)

/-- The last line of the first lines does not run into the first of the others. -/
def Joins (xs ys : List String) : Prop :=
  ∀ x ∈ xs.getLast?, ∀ y ∈ ys.head?, Meets x.toList y.toList

lemma tokens_blank {c : Char} (h : isBlank c = true) (cs : List Char) :
    tokens (c :: cs) = tokens cs := by
  rw [tokens, tokensFrom, if_neg (by simp [continues]), if_pos h]
  simp [flush, tokens]

namespace Reads

variable {lines xs ys : List String} {ts us : List Token}

lemma line {line : String} (h : tokens line.toList = some ts) : Reads [line] ts := by
  simpa using Reads.cons h .nil

lemma append (h : Reads xs ts) (h' : Reads ys us) : Reads (xs ++ ys) (ts ++ us) := by
  induction h with
  | nil => exact h'
  | cons hline _ ih =>
    rw [List.append_assoc]
    exact .cons hline ih

lemma indent (h : Reads lines ts) : Reads (lines.map Block.indentLine) ts := by
  induction h with
  | nil => exact .nil
  | @cons line lines ts us hline _ ih =>
    refine .cons ?_ ih
    unfold Block.indentLine
    split
    · exact hline
    · rw [String.toList_append]
      show tokens (' ' :: ' ' :: line.toList) = _
      rw [tokens_blank (by decide), tokens_blank (by decide), hline]

lemma glue (h : Reads xs ts) (h' : Reads ys us) (hjoin : Joins xs ys) :
    Reads (glueLines xs ys) (ts ++ us) := by
  induction h with
  | nil =>
    rw [glueLines]
    exact h'
  | @cons x xs ts ts' hx hxs ih =>
    cases h' with
    | nil =>
      rw [glueLines, List.append_nil]
      · exact .cons hx hxs
      · simp
    | @cons y ys us us' hy hys =>
      cases hxs with
      | nil =>
        have hmeets : Meets x.toList y.toList := hjoin x rfl y rfl
        rw [glueLines, List.append_nil, ← List.append_assoc]
        refine .cons ?_ hys
        rw [String.toList_append]
        exact tokens_append hx hy hmeets
      | @cons x' xs ts'' ts''' hx' hxs =>
        rw [glueLines, List.append_assoc]
        · exact .cons hx (ih fun z hz => hjoin z (by simpa using hz))
        · simp
        · simp

/-- The text of lines has the tokens of all of them. -/
theorem tokens_text (h : Reads lines ts) : tokens ("\n".intercalate lines).toList = some ts := by
  induction h with
  | nil => rfl
  | @cons line lines ts us hline hlines ih =>
    cases hlines with
    | nil => rwa [String.intercalate_singleton, List.append_nil]
    | @cons next lines us us' hnext hlines =>
      rw [String.intercalate_cons_cons, String.toList_append, String.toList_append,
        List.append_assoc]
      refine tokens_append hline ?_ (meets_of_head (c := '\n') rfl (by decide))
      exact (tokens_blank (c := '\n') (by decide) _).trans ih

end Reads

/-! ### Where lines meet -/

lemma joins_of_head {xs ys : List String} {y : String} {c : Char} (hy : ys.head? = some y)
    (hc : y.toList.head? = some c) (hsep : isSeparate c = true) : Joins xs ys := by
  intro x _ y' hy'
  obtain rfl := Option.some.inj (hy.symm.trans hy')
  exact meets_of_head hc hsep

lemma joins_of_getLast {xs ys : List String} {x : String} {c : Char} (hx : xs.getLast? = some x)
    (hc : x.toList.getLast? = some c) (hsep : isSeparate c = true) : Joins xs ys := by
  intro x' hx' y _
  obtain rfl := Option.some.inj (hx.symm.trans hx')
  exact meets_of_getLast hc hsep

lemma getLast_append {a b : String} {c : Char} (h : b.toList.getLast? = some c) :
    (a ++ b).toList.getLast? = some c := by
  rw [String.toList_append, List.getLast?_append, h]
  rfl

lemma head_glueLines (x : String) (xs ys : List String) :
    ∃ z, (glueLines (x :: xs) ys).head? = some (x ++ z) := by
  cases ys with
  | nil => exact ⟨"", by simp [glueLines]⟩
  | cons y ys =>
    cases xs with
    | nil => exact ⟨y, rfl⟩
    | cons x' xs => exact ⟨"", by simp [glueLines]⟩

lemma getLast_glueLines (xs : List String) (y : String) :
    ∃ z, (glueLines xs [y]).getLast? = some (z ++ y) := by
  induction xs with
  | nil => exact ⟨"", by simp [glueLines]⟩
  | cons x xs ih =>
    cases xs with
    | nil => exact ⟨x, rfl⟩
    | cons x' xs =>
      obtain ⟨z, hz⟩ := ih
      refine ⟨z, ?_⟩
      rw [glueLines, List.getLast?_cons, hz]
      · rfl
      · simp
      · simp

/-! ### What a block says -/

/-- The tokens of a block, without trailing commas. -/
def Spells (b : Block) (us : List Token) : Prop :=
  ∃ ts, Reads b.lines ts ∧ Reduces ts us

namespace Spells

variable {a b : Block} {us vs : List Token}

lemma line {text : String} (h : tokens text.toList = some us) (hus : us.all (· != comma) = true) :
    Spells (.line text) us :=
  ⟨us, .line h, .of_all hus⟩

lemma glue (ha : Spells a us) (hb : Spells b vs) (h : Joins a.lines b.lines) :
    Spells (a.glue b) (us ++ vs) := by
  obtain ⟨ts, hts, hus⟩ := ha
  obtain ⟨ts', hts', hvs⟩ := hb
  exact ⟨ts ++ ts', hts.glue hts' h, hus.append hvs⟩

/-- Text after a block, from which it is separate. -/
lemma push (hb : Spells b us) {text : String} (ht : Spells (.line text) vs) {c : Char}
    (hc : text.toList.head? = some c) (hsep : isSeparate c = true) :
    Spells (b.push text) (us ++ vs) :=
  hb.glue ht (joins_of_head rfl hc hsep)

/-- A block after text, from which it is separate. -/
lemma lead {text : String} (ht : Spells (.line text) us) (hb : Spells b vs) {c : Char}
    (hc : text.toList.getLast? = some c) (hsep : isSeparate c = true) :
    Spells ((Block.line text).glue b) (us ++ vs) :=
  ht.glue hb (joins_of_getLast rfl hc hsep)

lemma append {x y : String} (hx : Spells (.line x) us) (hy : Spells (.line y) vs)
    (h : Meets x.toList y.toList) : Spells (.line (x ++ y)) (us ++ vs) := by
  refine glue hx hy ?_
  rintro _ ⟨⟩ _ ⟨⟩
  exact h

lemma identifier {name : String} (h : isIdentifier name = true) :
    Spells (.line name) [name.toList] ∧ Begins [name.toList] := by
  obtain ⟨c, cs, hname, hstart, -⟩ := exists_cons_of_isIdentifier h
  refine ⟨line (tokens_identifier h) ?_, _, _, rfl, ?_⟩
  · rw [hname]
    have hc : c ≠ ',' := by
      rintro rfl
      cases hstart
    simp [comma, hc]
  · rw [hname]
    have hc : c ≠ ']' ∧ c ≠ '}' := by
      constructor <;> rintro rfl <;> cases hstart
    simp [isClosing, hc.1, hc.2]

lemma quoted (text : String) : Spells (.line (quoteString text)) [(quoteString text).toList] ∧
    Begins [(quoteString text).toList] := by
  have hlist : (quoteString text).toList = chooseQuote text.toList ::
      (escapeQuoted (chooseQuote text.toList) text.toList ++ [chooseQuote text.toList]) := by
    rw [quoteString, String.toList_ofList]
    rfl
  refine ⟨line (tokens_quoteString text) ?_, _, _, rfl, ?_⟩
  · rw [hlist]
    rcases chooseQuote_cases text.toList with h | h <;> simp [comma, h]
  · rw [hlist]
    rcases chooseQuote_cases text.toList with h | h <;> simp [isClosing, h]

/-- A line that begins with a token is not empty. -/
lemma toList_ne_nil {text : String} (h : Spells (.line text) us) (hus : Begins us) :
    text.toList ≠ [] := by
  obtain ⟨ts, hts, hred⟩ := h
  obtain ⟨t, rest, rfl, -⟩ := hus
  intro hnil
  cases hts with
  | cons hline hlines =>
    cases hlines
    rw [hnil] at hline
    obtain rfl := Option.some.inj hline
    cases hred []

end Spells

/-! ### Lists -/

section Lists

variable {items : List Block} {uss : List (List Token)}

theorem spells_commaSeparated (h : List.Forall₂ Spells items uss) (hbegins : ∀ us ∈ uss, Begins us) :
    Spells (.commaSeparated items) (joined uss) := by
  induction h with
  | nil => exact ⟨[], .nil, fun rest => rfl⟩
  | @cons item us items uss hitem hitems ih =>
    obtain ⟨hus, huss⟩ := List.forall_mem_cons.1 hbegins
    cases hitems with
    | nil => exact hitem
    | @cons next vs items uss hnext hitems =>
      obtain ⟨ts, hts, hred⟩ := hitem
      obtain ⟨ts', hts', hred'⟩ := ih huss
      have hcomma : Reads [", "] [comma] := .line (by decide)
      have hpush : Reads (item.push ", ").lines (ts ++ [comma]) :=
        hts.glue hcomma (joins_of_head (c := ',') rfl rfl (by decide))
      obtain ⟨z, hz⟩ := getLast_glueLines item.lines ", "
      have hjoin : Joins (item.push ", ").lines (Block.commaSeparated (next :: items)).lines :=
        joins_of_getLast (c := ' ') hz (getLast_append (by decide)) (by decide)
      refine ⟨ts ++ [comma] ++ ts', hpush.glue hts' hjoin, ?_⟩
      rw [List.append_assoc]
      exact hred.append (hred'.comma (begins_joined (huss vs (List.mem_cons_self ..)) _))

/-- Items one below the other, each with a comma after it, in front of the closing bracket. -/
lemma reads_stack (h : List.Forall₂ Spells items uss) (hbegins : ∀ us ∈ uss, Begins us)
    (hne : items ≠ []) {close : Token} (hclose : isClosing close = true) :
    ∃ ts, Reads (Block.stack (items.map (·.push ","))).lines ts ∧
      Reduces (ts ++ [close]) (joined uss ++ [close]) := by
  induction h with
  | nil => exact absurd rfl hne
  | @cons item us items uss hitem hitems ih =>
    obtain ⟨hus, huss⟩ := List.forall_mem_cons.1 hbegins
    obtain ⟨ts, hts, hred⟩ := hitem
    have hcomma : Reads [","] [comma] := .line (by decide)
    have hpush : Reads (item.push ",").lines (ts ++ [comma]) :=
      hts.glue hcomma (joins_of_head (c := ',') rfl rfl (by decide))
    cases hitems with
    | nil =>
      refine ⟨ts ++ [comma] ++ [], hpush.append .nil, ?_⟩
      rw [List.append_nil, List.append_assoc]
      exact hred.append (.trailing hclose)
    | @cons next vs items uss hnext hitems =>
      obtain ⟨ts', hts', hred'⟩ := ih huss (List.cons_ne_nil _ _)
      refine ⟨ts ++ [comma] ++ ts', hpush.append hts', ?_⟩
      have hbegin := (begins_joined (huss vs (List.mem_cons_self ..)) uss).append [close]
      have hall := hred.append (hred'.comma hbegin)
      simpa [joined] using hall

/-- The brackets of arrays and of objects. -/
def isBrackets (opening closing : String) : Bool :=
  (opening = "[" && closing = "]") || (opening = "\x7b" && closing = "\x7d")

lemma isBrackets_cases {opening closing : String} (h : isBrackets opening closing = true) :
    (opening = "[" ∧ closing = "]") ∨ (opening = "\x7b" ∧ closing = "\x7d") := by
  simpa [isBrackets] using h

lemma spells_inlineList {opening closing : String} (hbrackets : isBrackets opening closing = true)
    (h : List.Forall₂ Spells items uss) (hbegins : ∀ us ∈ uss, Begins us) :
    Spells (.inlineList opening closing items) (opening.toList :: joined uss ++ [closing.toList]) := by
  have hitems := spells_commaSeparated h hbegins
  rcases isBrackets_cases hbrackets with ⟨rfl, rfl⟩ | ⟨rfl, rfl⟩
  · have hopen : Spells (.line ("[" ++ "")) ["[".toList] := .line (by decide) (by decide)
    have hclose : Spells (.line ("" ++ "]")) ["]".toList] := .line (by decide) (by decide)
    exact (hopen.lead hitems (c := '[') (by decide) (by decide)).push hclose (c := ']') (by decide)
      (by decide)
  · have hopen : Spells (.line ("\x7b" ++ " ")) ["\x7b".toList] := .line (by decide) (by decide)
    have hclose : Spells (.line (" " ++ "\x7d")) ["\x7d".toList] := .line (by decide) (by decide)
    exact (hopen.lead hitems (c := ' ') (by decide) (by decide)).push hclose (c := ' ') (by decide)
      (by decide)

lemma spells_brokenList {opening closing : String} (hbrackets : isBrackets opening closing = true)
    (h : List.Forall₂ Spells items uss) (hbegins : ∀ us ∈ uss, Begins us) (hne : items ≠ []) :
    Spells (.brokenList opening closing items) (opening.toList :: joined uss ++ [closing.toList]) := by
  obtain ⟨hopen, hred, hclose, hclosing⟩ : tokens opening.toList = some [opening.toList] ∧
      Reduces [opening.toList] [opening.toList] ∧ tokens closing.toList = some [closing.toList] ∧
      isClosing closing.toList = true := by
    rcases isBrackets_cases hbrackets with ⟨rfl, rfl⟩ | ⟨rfl, rfl⟩ <;>
      exact ⟨by decide, .of_all (by decide), by decide, by decide⟩
  obtain ⟨ts, hts, hitems⟩ := reads_stack h hbegins hne hclosing
  refine ⟨[opening.toList] ++ ts ++ [closing.toList],
    ((Reads.line hopen).append hts.indent).append (.line hclose), ?_⟩
  rw [List.append_assoc]
  exact hred.append hitems

/-- **A list says the same on one line and on many.** -/
theorem spells_list {opening closing : String} (hbrackets : isBrackets opening closing = true)
    (h : List.Forall₂ Spells items uss) (hbegins : ∀ us ∈ uss, Begins us) (measure : String → Nat)
    (breaks : Bool) :
    Spells (.list measure breaks opening closing items)
      (opening.toList :: joined uss ++ [closing.toList]) := by
  unfold Block.list
  split
  · rename_i hnil
    obtain rfl : items = [] := List.isEmpty_iff.1 hnil
    cases h
    rcases isBrackets_cases hbrackets with ⟨rfl, rfl⟩ | ⟨rfl, rfl⟩ <;>
      exact .line (by decide) (by decide)
  · rename_i hnil
    split
    · exact spells_inlineList hbrackets h hbegins
    · exact spells_brokenList hbrackets h hbegins fun hne => hnil (List.isEmpty_iff.2 hne)

theorem spells_argumentList (h : List.Forall₂ Spells items uss) (hbegins : ∀ us ∈ uss, Begins us) :
    Spells (argumentList items) (['('] :: joined uss ++ [[')']]) := by
  have hopen : Spells (.line "(") [['(']] := .line (by decide) (by decide)
  have hclose : Spells (.line ")") [[')']] := .line (by decide) (by decide)
  have hitems := hopen.lead (spells_commaSeparated h hbegins) (c := '(') rfl (by decide)
  exact hitems.push hclose (c := ')') rfl (by decide)

end Lists

/-! ### Types and parameters -/

/-- There are no operators in the text. -/
def Wordy (text : String) : Prop :=
  text.toList.all (!isOperator ·) = true

instance (text : String) : Decidable (Wordy text) :=
  inferInstanceAs (Decidable (_ = true))

lemma isOperator_of_isIdentifierPart {c : Char} (h : isIdentifierPart c = true) :
    isOperator c = false := by
  have hsigns : operatorSigns.all (!isIdentifierPart ·) = true := by decide
  by_contra hop
  have hmem : c ∈ operatorSigns := List.contains_iff_mem.1 (Bool.not_eq_false _ ▸ hop)
  have hpart := List.all_eq_true.1 hsigns c hmem
  rw [h] at hpart
  cases hpart

lemma wordy_identifier {name : String} (h : isIdentifier name = true) : Wordy name := by
  obtain ⟨_, _, _, _, hparts⟩ := exists_cons_of_isIdentifier h
  refine List.all_eq_true.2 fun c hc => ?_
  rw [isOperator_of_isIdentifierPart (hparts c hc)]
  rfl

lemma joinable_wordy : Joinable Wordy where
  append {a b} ha hb := by
    unfold Wordy at ha hb ⊢
    rw [String.toList_append, List.all_append, ha, hb]
    rfl
  typeWord := by decide

/-- A sign after text without operators. -/
lemma Wordy.meets {text : String} (h : Wordy text) {b : List Char} {c : Char}
    (hb : b.head? = some c) (hc : isIdentifierPart c = false) : Meets text.toList b := by
  intro d hd
  obtain rfl := Option.some.inj (hb.symm.trans hd)
  cases hlast : text.toList.getLast? with
  | none => simp [continues, hlast]
  | some l =>
    have hl : isOperator l = false := by
      simpa using List.all_eq_true.1 h l (List.mem_of_getLast? hlast)
    simp [continues, sticks, hlast, hl, hc]

/-- Text without operators after a sign. -/
lemma Wordy.meets_left {text : String} (h : Wordy text) {a : List Char} {c : Char}
    (ha : a.getLast? = some c) (hc : isIdentifierPart c = false) : Meets a text.toList := by
  intro d hd
  have hd' : isOperator d = false := by
    simpa using List.all_eq_true.1 h d (List.mem_of_head? hd)
  simp [continues, sticks, ha, hc, hd']

/-- A block that says the same under every printer, and that may be an item of a list. -/
def Steady (block : Printer → Block) : Prop :=
  ∃ us, Begins us ∧ ∀ printer, Spells (block printer) us

/-- What says the same item by item has one reading as a list. -/
lemma Steady.list {α : Type} (block : Printer → α → Block) {as : List α}
    (h : ∀ a ∈ as, Steady (block · a)) :
    ∃ uss, (∀ us ∈ uss, Begins us) ∧
      ∀ printer, List.Forall₂ Spells (as.map (block printer)) uss := by
  induction as with
  | nil => exact ⟨[], by simp, fun _ => .nil⟩
  | cons a as ih =>
    obtain ⟨⟨us, hbegins, hus⟩, has⟩ := List.forall_mem_cons.1 h
    obtain ⟨uss, hall, huss⟩ := ih has
    exact ⟨us :: uss, List.forall_mem_cons.2 ⟨hbegins, hall⟩,
      fun printer => .cons (hus printer) (huss printer)⟩

lemma Steady.identifier {name : String} (h : isIdentifier name = true) :
    Steady fun _ => .line name :=
  ⟨_, (Spells.identifier h).2, fun _ => (Spells.identifier h).1⟩

/-- Lines with commas between them, on one line. -/
lemma spells_commas {α : Type} (text : α → String) {as : List α}
    (h : ∀ a ∈ as, Steady fun _ => .line (text a)) :
    ∃ us, Spells (.line (", ".intercalate (as.map text))) us ∧ (as ≠ [] → Begins us) := by
  obtain ⟨uss, hbegins, huss⟩ := Steady.list (fun _ a => .line (text a)) h
  cases as with
  | nil => exact ⟨[], .line rfl rfl, fun hne => absurd rfl hne⟩
  | cons a as =>
    have hlines : (a :: as).map (fun a => Block.line (text a)) =
        (text a :: as.map text).map Block.line := by
      simp
    have hitems := spells_commaSeparated (huss {}) hbegins
    rw [hlines, commaSeparated_lines] at hitems
    refine ⟨_, hitems, fun _ => ?_⟩
    cases huss {} with
    | cons => exact begins_joined (hbegins _ (List.mem_cons_self ..)) _

lemma steady_typeText {type : TypeNode} (h : ∀ n ∈ type.names, isIdentifier n = true) :
    Steady fun _ => .line (typeText type) := by
  induction type with
  | any | string | number => exact .identifier (by decide)
  | array element ih =>
    obtain ⟨us, hbegins, hus⟩ := ih h
    have hbrackets : Spells (.line "[]") [['['], [']']] := .line (by decide) (by decide)
    exact ⟨_, hbegins.append _, fun printer => (hus printer).push hbrackets (c := '[') rfl (by decide)⟩
  | named name => exact .identifier (h name (List.mem_singleton_self name))

lemma steady_param {p : Param} (h : ∀ n ∈ p.names, isIdentifier n = true) :
    Steady fun _ => .line (p.name ++ typeAnnotation p.type) := by
  obtain ⟨hname, htype⟩ := List.forall_mem_cons.1 h
  obtain ⟨hspells, hbegins⟩ := Spells.identifier hname
  cases hcase : p.type with
  | none =>
    show Steady fun _ => .line (p.name ++ "")
    rw [String.append_empty]
    exact ⟨_, hbegins, fun _ => hspells⟩
  | some type =>
    rw [hcase] at htype
    obtain ⟨us, -, hus⟩ := steady_typeText htype
    have hcolon : Spells (.line ": ") [[':']] := .line (by decide) (by decide)
    have hannotation : Spells (.line (": " ++ typeText type)) ([[':']] ++ us) :=
      hcolon.lead (hus {}) (c := ' ') (by decide) (by decide)
    have hhead : (": " ++ typeText type).toList.head? = some ':' := by simp
    exact ⟨_, hbegins.append _, fun _ => hspells.push hannotation hhead (by decide)⟩

lemma spells_paramsText {params : List Param}
    (h : ∀ n ∈ params.flatMap Param.names, isIdentifier n = true) :
    ∃ us, Spells (.line (paramsText params)) us := by
  obtain ⟨us, hus, -⟩ := spells_commas _ fun p hp =>
    steady_param fun n hn => h n (List.mem_flatMap.2 ⟨p, hp, hn⟩)
  exact ⟨us, hus⟩

lemma spells_typeArguments {types : List TypeNode}
    (h : ∀ n ∈ types.flatMap TypeNode.names, isIdentifier n = true) {text : String}
    (htext : Wordy text) {us : List Token} (hus : Spells (.line text) us) :
    ∃ vs, Spells (.line (text ++ typeArguments types)) (us ++ vs) := by
  unfold typeArguments
  split
  · rw [String.append_empty]
    exact ⟨[], by rwa [List.append_nil]⟩
  · rename_i hne
    obtain ⟨vs, hvs, hbegins⟩ := spells_commas typeText fun type htype =>
      steady_typeText fun n hn => h n (List.mem_flatMap.2 ⟨type, htype, hn⟩)
    have hwordy : Wordy (", ".intercalate (types.map typeText)) :=
      joinable_wordy.typeTexts fun n hn => wordy_identifier (h n hn)
    have hnil := hvs.toList_ne_nil (hbegins fun hnil => hne (List.isEmpty_iff.2 hnil))
    have hopen : Spells (.line "<") [['<']] := .line (by decide) (by decide)
    have hclose : Spells (.line ">") [['>']] := .line (by decide) (by decide)
    have hinner := hopen.append hvs (hwordy.meets_left (c := '<') (by decide) (by decide))
    have hmeets : Meets ("<" ++ ", ".intercalate (types.map typeText)).toList ">".toList := by
      intro c hc
      rw [String.toList_append, continues_append _ hnil]
      exact hwordy.meets (c := '>') (by decide) (by decide) c hc
    exact ⟨_, hus.append (hinner.append hclose hmeets) (htext.meets (c := '<') (by simp) (by decide))⟩

/-! ### Template literals -/

/-- The texts of a template literal that are left over after its last substitution. -/
def Expr.leftover : Expr → List String
  | .template quasis exprs => quasis.drop exprs.length
  | _ => []

lemma passes_identifier {name : String} (h : isIdentifier name = true) : Passes name.toList := by
  obtain ⟨_, _, _, _, hparts⟩ := exists_cons_of_isIdentifier h
  exact .of_plain (List.all_eq_true.2 fun c hc => isPlain_of_isIdentifierPart (hparts c hc))

lemma composable_passes : Composable fun text => Passes text.toList where
  append {a b} ha hb := by
    rw [String.toList_append]
    exact ha.append hb
  typeWord := by
    have hplain : ∀ word ∈ typeWords, word.toList.all isPlain = true := by decide
    exact fun word hword => .of_plain (hplain word hword)
  codeWord := by
    have hplain : ∀ word ∈ codeWords, word.toList.all isPlain = true := by decide
    exact fun word hword => .of_plain (hplain word hword)
  identifier := passes_identifier
  quoted text := by
    rw [quoteString, String.toList_ofList]
    exact .quoteChars text.toList
  braced {text} h := by
    rw [String.toList_append, String.toList_append]
    exact h.braced

lemma fills_inlineBody {quasis : List String} {es : List Expr}
    (hseams : isSeamless (quasis.drop es.length) = true) (h : ∀ e ∈ es, Passes e.inline.toList) :
    Fills (inlineBody quasis es).toList := by
  induction es generalizing quasis with
  | nil =>
    rw [inlineBody]
    exact fills_texts hseams
  | cons e es ih =>
    obtain ⟨he, hes⟩ := List.forall_mem_cons.1 h
    have hrest : isSeamless (quasis.tail.drop es.length) = true := by
      rwa [List.drop_tail]
    have hlist : (inlineBody quasis (e :: es)).toList =
        escapeTemplateChars (quasis.head?.getD "").toList ++
          '$' :: '{' :: (e.inline.toList ++ '}' :: (inlineBody quasis.tail es).toList) := by
      rw [inlineBody]
      cases quasis <;> simp [escapeTemplate, escapeTemplateChars]
    rw [hlist]
    exact fills_substitution _ he (ih hrest hes)

lemma toList_inline_template (quasis : List String) (es : List Expr) :
    (Expr.template quasis es).inline.toList =
      '\x60' :: (inlineBody quasis es).toList ++ ['\x60'] := by
  rw [Expr.inline]
  simp

/-- Names are identifiers, and where texts of a template literal follow each other, no substitution
begins between them. -/
def Expr.Sound (e : Expr) : Prop :=
  e.All fun x => (∀ n ∈ x.names, isIdentifier n = true) ∧ isSeamless x.leftover = true

lemma Expr.Sound.names {e : Expr} (h : e.Sound) : ∀ n ∈ e.names, isIdentifier n = true :=
  (all_iff.1 h).1.1

lemma Expr.Sound.child {e c : Expr} (h : e.Sound) (hc : c ∈ e.children) : c.Sound :=
  (all_iff.1 h).2 c hc

/-- An expression on one line is code that a substitution may hold. -/
theorem passes_inline {e : Expr} (h : e.Sound) : Passes e.inline.toList := by
  refine composable_passes.inline fun x hx => ⟨fun n hn => passes_identifier ((h x hx).1 n hn), ?_⟩
  rintro quasis exprs rfl hexprs
  rw [toList_inline_template]
  exact .template (fills_inlineBody (h _ hx).2 hexprs)

/-! ### Expressions -/

lemma head_argumentList (args : List Block) :
    ∃ z, (argumentList args).lines.head? = some ("(" ++ z) := by
  obtain ⟨z, hz⟩ := head_glueLines "(" [] (Block.commaSeparated args).lines
  obtain ⟨lines, hlines⟩ := List.head?_eq_some_iff.1 hz
  obtain ⟨w, hw⟩ := head_glueLines ("(" ++ z) lines [")"]
  refine ⟨z ++ w, ?_⟩
  show (glueLines (glueLines ["("] (Block.commaSeparated args).lines) [")"]).head? = _
  rw [hlines, hw, String.append_assoc]

/-- What is called, and its arguments. -/
lemma Spells.call {b : Block} {us : List Token} (hb : Spells b us) {args : List Block}
    {uss : List (List Token)} (h : List.Forall₂ Spells args uss) (hbegins : ∀ us ∈ uss, Begins us) :
    Spells (b.glue (argumentList args)) (us ++ (['('] :: joined uss ++ [[')']])) := by
  obtain ⟨z, hz⟩ := head_argumentList args
  exact hb.glue (spells_argumentList h hbegins) (joins_of_head (c := '(') hz (by simp) (by decide))

lemma steady_propertyBlock {p : String × Expr} (h : Steady (p.2.block ·)) :
    Steady (propertyBlock · p) := by
  obtain ⟨us, -, hus⟩ := h
  have hcolon : Spells (.line ": ") [[':']] := .line (by decide) (by decide)
  obtain ⟨key, hkey, hbegins⟩ : ∃ vs, Spells (.line (propertyKey p.1)) vs ∧ Begins vs := by
    unfold propertyKey
    split
    · exact ⟨_, Spells.identifier ‹_›⟩
    · exact ⟨_, Spells.quoted p.1⟩
  refine ⟨_, (hbegins.append [[':']]).append us, fun printer => ?_⟩
  have hlead : Spells (.line (propertyKey p.1 ++ ": ")) (key ++ [[':']]) :=
    hkey.push hcolon (c := ':') rfl (by decide)
  exact hlead.lead (hus printer) (c := ' ') (getLast_append (by decide)) (by decide)

/-- **An expression says the same under every printer.** -/
theorem steady_block {e : Expr} (h : e.Sound) : Steady (e.block ·) := by
  induction e using Expr.induction with
  | identifier name =>
    have hname := Spells.identifier (h.names name (List.mem_singleton_self name))
    refine ⟨_, hname.2, fun printer => ?_⟩
    simp only [block_identifier]
    exact hname.1
  | literal value =>
    refine ⟨_, (Spells.quoted value).2, fun printer => ?_⟩
    simp only [block_literal]
    exact (Spells.quoted value).1
  | this =>
    refine ⟨["this".toList], ⟨_, _, rfl, by decide⟩, fun printer => ?_⟩
    simp only [block_this]
    exact .line (by decide) (by decide)
  | member object property ih =>
    obtain ⟨us, hbegins, hus⟩ := ih (h.child (List.mem_singleton_self object))
    have hdot : Spells (.line ".") [['.']] := .line (by decide) (by decide)
    have hname := (Spells.identifier (h.names property (List.mem_singleton_self property))).1
    have hproperty : Spells (.line ("." ++ property)) ([['.']] ++ [property.toList]) :=
      hdot.lead hname (c := '.') (by decide) (by decide)
    refine ⟨_, hbegins.append ([['.']] ++ [property.toList]), fun printer => ?_⟩
    simp only [block_member]
    exact (hus printer).push hproperty (c := '.') (by simp) (by decide)
  | call callee args ih ihs =>
    obtain ⟨us, hbegins, hus⟩ := ih (h.child (List.mem_cons_self ..))
    obtain ⟨uss, hall, huss⟩ := Steady.list Expr.block fun e he =>
      ihs e he (h.child (List.mem_cons_of_mem _ he))
    refine ⟨_, hbegins.append (['('] :: joined uss ++ [[')']]), fun printer => ?_⟩
    simp only [block_call]
    exact (hus printer).call (huss printer) hall
  | template quasis exprs ihs =>
    have hpasses : ∀ e ∈ exprs, Passes e.inline.toList := fun e he => passes_inline (h.child he)
    have htokens := tokens_template (fills_inlineBody (Expr.all_iff.1 h).1.2 hpasses)
    rw [← toList_inline_template] at htokens
    refine ⟨[(Expr.template quasis exprs).inline.toList], ⟨_, _, rfl, ?_⟩, fun printer => ?_⟩
    · rw [toList_inline_template]
      simp [isClosing]
    · simp only [block_template_inline]
      refine .line htokens ?_
      rw [toList_inline_template]
      simp [comma]
  | arrow params body ih =>
    obtain ⟨us, -, hus⟩ := ih (h.child (List.mem_singleton_self body))
    obtain ⟨vs, hvs⟩ := spells_paramsText h.names
    have hopen : Spells (.line "(") [['(']] := .line (by decide) (by decide)
    have harrow : Spells (.line ") => ") [[')'], ['=', '>']] := .line (by decide) (by decide)
    have hparams : Spells (.line ("(" ++ paramsText params)) ([['(']] ++ vs) :=
      hopen.lead hvs (c := '(') (by decide) (by decide)
    have hhead : Spells (.line ("(" ++ paramsText params ++ ") => "))
        ([['(']] ++ vs ++ [[')'], ['=', '>']]) :=
      hparams.push harrow (c := ')') (by decide) (by decide)
    refine ⟨[['(']] ++ vs ++ [[')'], ['=', '>']] ++ us, ⟨_, _, rfl, by decide⟩, fun printer => ?_⟩
    simp only [block_arrow]
    exact hhead.lead (hus printer) (c := ' ') (getLast_append (by decide)) (by decide)
  | assignment left right ihl ihr =>
    obtain ⟨us, hbegins, hus⟩ := ihl (h.child (List.mem_cons_self ..))
    obtain ⟨vs, -, hvs⟩ := ihr (h.child (List.mem_cons_of_mem _ (List.mem_singleton_self right)))
    have hequals : Spells (.line " = ") [['=']] := .line (by decide) (by decide)
    refine ⟨us ++ [['=']] ++ vs, (hbegins.append _).append _, fun printer => ?_⟩
    obtain ⟨z, hz⟩ := getLast_glueLines (left.block printer).lines " = "
    simp only [block_assignment]
    exact ((hus printer).push hequals (c := ' ') rfl (by decide)).glue (hvs printer)
      (joins_of_getLast (c := ' ') hz (getLast_append (by decide)) (by decide))
  | object ps ihs =>
    obtain ⟨uss, hall, huss⟩ := Steady.list propertyBlock fun p hp =>
      steady_propertyBlock (ihs p hp (h.child (List.mem_map_of_mem hp)))
    refine ⟨"\x7b".toList :: joined uss ++ ["\x7d".toList], ⟨_, _, rfl, by decide⟩, fun printer => ?_⟩
    simp only [block_object]
    exact spells_list (by decide) (huss printer) hall _ _
  | array items ihs =>
    obtain ⟨uss, hall, huss⟩ := Steady.list Expr.block fun e he => ihs e he (h.child he)
    refine ⟨"[".toList :: joined uss ++ ["]".toList], ⟨_, _, rfl, by decide⟩, fun printer => ?_⟩
    simp only [block_array]
    exact spells_list (by decide) (huss printer) hall _ _
  | construct callee types args ihs =>
    obtain ⟨hcallee, htypes⟩ := List.forall_mem_cons.1 h.names
    obtain ⟨uss, hall, huss⟩ := Steady.list Expr.block fun e he => ihs e he (h.child he)
    have hnew : Spells (.line "new ") ["new".toList] := .line (by decide) (by decide)
    have hname : Spells (.line ("new " ++ callee)) (["new".toList] ++ [callee.toList]) :=
      hnew.lead (Spells.identifier hcallee).1 (c := ' ') (by decide) (by decide)
    have hwordy : Wordy ("new " ++ callee) :=
      joinable_wordy.append (by decide) (wordy_identifier hcallee)
    obtain ⟨vs, hvs⟩ := spells_typeArguments htypes hwordy hname
    refine ⟨["new".toList] ++ [callee.toList] ++ vs ++ (['('] :: joined uss ++ [[')']]),
      ⟨_, _, rfl, by decide⟩, fun printer => ?_⟩
    simp only [block_construct]
    exact hvs.call (huss printer) hall
  | load source =>
    have hopen : Spells (.line "import(") ["import".toList, ['(']] := .line (by decide) (by decide)
    have hclose : Spells (.line ")") [[')']] := .line (by decide) (by decide)
    have hsource : Spells (.line ("import(" ++ quoteString source))
        (["import".toList, ['(']] ++ [(quoteString source).toList]) :=
      hopen.lead (Spells.quoted source).1 (c := '(') (by decide) (by decide)
    refine ⟨["import".toList, ['(']] ++ [(quoteString source).toList] ++ [[')']],
      ⟨_, _, rfl, by decide⟩, fun printer => ?_⟩
    simp only [block_load]
    exact hsource.push hclose (c := ')') (by decide) (by decide)

/-- **Layout never changes the code.** Take an expression whose names are identifiers. In none of its
template literals may a text that is left over after the last substitution end in a dollar sign where
the texts after it begin with a brace. Then every printer, with line breaks or without them and by any
measure of width, prints a text with the same tokens, without the commas right before a closing bracket
or brace. -/
theorem tokens_printed (e : Expr) (hnames : e.All fun x => ∀ n ∈ x.names, isIdentifier n = true)
    (hseams : e.All fun x => isSeamless x.leftover = true) :
    ∃ us, ∀ printer : Printer, ∃ ts, tokens (printed printer e).toList = some ts ∧
      dropTrailingCommas ts = us := by
  obtain ⟨us, -, hus⟩ := steady_block fun x hx => ⟨hnames x hx, hseams x hx⟩
  refine ⟨us, fun printer => ?_⟩
  obtain ⟨ts, hts, hred⟩ := hus printer
  refine ⟨ts, hts.tokens_text, ?_⟩
  simpa [dropTrailingCommas] using hred []

/-- Lists in lists, of which some are too wide for a line, with the signs of code in their texts. -/
def nestedLists : Expr :=
  .call (.member .this "f")
    [.array [.object [("a-b", .literal "],\n'\x7b"), ("c", .array [])],
      .template ["$", "\x7b,]", "$", "$\x7b"] [.object [("d", .array [.identifier "e", .literal "\x60"])]],
      .literal (String.ofList (List.replicate 80 ','))],
    .arrow [⟨"p", some (.array (.named "T"))⟩] (.construct "Map" [.named "K", .any] [.load "./x"])]

theorem tokens_printed_nested :
    (nestedLists.All fun x => ∀ n ∈ x.names, isIdentifier n = true) ∧
    (nestedLists.All fun x => isSeamless x.leftover = true) ∧
    ∃ us, ∀ printer : Printer, ∃ ts, tokens (printed printer nestedLists).toList = some ts ∧
      dropTrailingCommas ts = us := by
  have hnames : nestedLists.All fun x => ∀ n ∈ x.names, isIdentifier n = true := by
    simp only [nestedLists, Expr.all_iff_forall, Expr.children, List.map_cons, List.map_nil,
      List.forall_cons, List.Forall]
    and_intros <;> decide
  have hseams : nestedLists.All fun x => isSeamless x.leftover = true := by
    simp only [nestedLists, Expr.all_iff_forall, Expr.children, List.map_cons, List.map_nil,
      List.forall_cons, List.Forall]
    and_intros <;> decide
  exact ⟨hnames, hseams, tokens_printed nestedLists hnames hseams⟩

/-- A dollar sign and a brace, in texts that follow each other. -/
def seamedArray : Expr :=
  .array [.template ["$", "\x7b"] [], .literal (String.ofList (List.replicate 60 'x')),
    .template ["\x7d"] []]

/-- **Between texts that are left over, a substitution may begin.** It ends in the third item of the
list, and all that is between them, line breaks too, is in one template literal. -/
theorem tokens_printed_seam :
    (seamedArray.All fun x => ∀ n ∈ x.names, isIdentifier n = true) ∧
    ∃ ts us, tokens (printed {} seamedArray).toList = some ts ∧
      tokens (printed { breaks := false } seamedArray).toList = some us ∧
      dropTrailingCommas ts ≠ dropTrailingCommas us := by
  have hnames : seamedArray.All fun x => ∀ n ∈ x.names, isIdentifier n = true := by
    simp only [seamedArray, Expr.all_iff_forall, Expr.children, List.forall_cons, List.Forall]
    and_intros <;> decide
  obtain ⟨hbroken, hinline, hdiffer⟩ : (tokens (printed {} seamedArray).toList).isSome = true ∧
      (tokens (printed { breaks := false } seamedArray).toList).isSome = true ∧
      (tokens (printed {} seamedArray).toList).map dropTrailingCommas ≠
        (tokens (printed { breaks := false } seamedArray).toList).map dropTrailingCommas := by
    decide +kernel
  obtain ⟨ts, hts⟩ := Option.isSome_iff_exists.1 hbroken
  obtain ⟨us, hus⟩ := Option.isSome_iff_exists.1 hinline
  rw [hts, hus] at hdiffer
  exact ⟨hnames, ts, us, hts, hus, fun heq => hdiffer (congrArg some heq)⟩

end Polyglot.Script
