import Polyglot.Document
import Polyglot.Text.Blank
import Polyglot.Text.Identifier

/-!
# Reading message files

A file is a sequence of statements: comments, at most one header, directives and messages. It is
read from left to right over a `Cursor`, which holds the characters that are left and the place of
the first of them.

* `Cursor` and its moves.
* The lemmas `…_eq_ok_iff` say when a reading succeeds and with what, `TextStep` and `StatementStep`
  case by case. All that is known about readings that succeed comes from them.
* Every move that succeeds leaves no more characters than before, and the lemmas `…_lt`, `…_le` say
  which ones leave fewer; the loops end because of them.
* `Read.text`: the quoted text of a message, in pieces.
* `Read.statements`: the statements of a file.
* `Document.read`: the document and the slips of a source text.
-/

namespace Polyglot

/-- The characters still to be read, and the place of the first of them. -/
structure Cursor where
  rest : List Char
  position : Position
deriving DecidableEq, Repr

namespace Cursor

/-- At the beginning of a text. -/
def ofText (text : List Char) : Cursor :=
  ⟨text, .start⟩

/-- The characters up to the first that fails `p`, and the cursor there. -/
def span (p : Char → Bool) (cur : Cursor) : List Char × Cursor :=
  let taken := cur.rest.takeWhile p
  (taken, ⟨cur.rest.dropWhile p, cur.position.afterAll taken⟩)

/-- Pass over the characters that satisfy `p`. -/
def skip (p : Char → Bool) (cur : Cursor) : Cursor :=
  (cur.span p).2

/-- Pass over blanks on the same line. -/
def skipInline (cur : Cursor) : Cursor :=
  cur.skip isInlineBlank

/-- Pass over the rest of the line. -/
def skipLine (cur : Cursor) : Cursor :=
  cur.skip (· != '\n')

/-- Pass over one given character. -/
def eat (c : Char) (cur : Cursor) : Option Cursor :=
  match cur.rest with
  | [] => none
  | d :: ds => if d = c then some ⟨ds, cur.position.after d⟩ else none

/-- The identifier that begins here. -/
def identifier (cur : Cursor) : Option (String × Cursor) :=
  match cur.rest with
  | [] => none
  | c :: _ =>
    if isIdentifierStart c then
      some (String.ofList (cur.span isIdentifierPart).1, (cur.span isIdentifierPart).2)
    else none

/-- Code up to the brace that closes it, and what follows that brace. Braces inside the code
balance; on one line only, unless `multiline` is set. -/
def closeBrace (multiline : Bool) : (depth : Nat) → List Char → Option (List Char × List Char)
  | _, [] => none
  | depth, c :: cs =>
    if c = '\n' && !multiline then none
    else if c = '{' then (closeBrace multiline (depth + 1) cs).map (fun r => (c :: r.1, r.2))
    else if c = '}' then
      match depth with
      | 0 => some ([], cs)
      | depth + 1 => (closeBrace multiline depth cs).map (fun r => (c :: r.1, r.2))
    else (closeBrace multiline depth cs).map (fun r => (c :: r.1, r.2))

/-- Read code up to and including the brace that closes it. -/
def code (multiline : Bool) (cur : Cursor) : Option (List Char × Cursor) :=
  (closeBrace multiline 0 cur.rest).map
    (fun r => (r.1, ⟨r.2, cur.position.afterAll (r.1 ++ ['}'])⟩))

/-! ## what is left -/

theorem skip_le (p : Char → Bool) (cur : Cursor) : (cur.skip p).rest.length ≤ cur.rest.length :=
  (List.dropWhile_sublist p).length_le

theorem skipInline_le (cur : Cursor) : cur.skipInline.rest.length ≤ cur.rest.length :=
  skip_le _ cur

theorem skipLine_le (cur : Cursor) : cur.skipLine.rest.length ≤ cur.rest.length :=
  skip_le _ cur

theorem eat_eq_some_iff {c : Char} {cur next : Cursor} :
    cur.eat c = some next ↔ cur.rest = c :: next.rest ∧ next.position = cur.position.after c := by
  obtain ⟨rest, pos⟩ := cur
  obtain ⟨rest', pos'⟩ := next
  cases rest with
  | nil => simp [eat]
  | cons d ds =>
    by_cases hd : d = c
    · simp [eat, hd, eq_comm]
    · simp [eat, hd]

theorem eat_eq_none_iff {c : Char} {cur : Cursor} : cur.eat c = none ↔ cur.rest.head? ≠ some c := by
  obtain ⟨rest, pos⟩ := cur
  cases rest <;> simp [eat]

theorem eat_lt {c : Char} {cur next : Cursor} (h : cur.eat c = some next) :
    next.rest.length < cur.rest.length := by
  rw [(eat_eq_some_iff.1 h).1]
  exact Nat.lt_succ_self _

theorem identifier_eq_some_iff {cur next : Cursor} {name : String} :
    cur.identifier = some (name, next) ↔
      (∃ c cs, cur.rest = c :: cs ∧ isIdentifierStart c = true) ∧
        cur.span isIdentifierPart = (name.toList, next) := by
  unfold identifier
  cases cur.rest with
  | nil => simp
  | cons c cs =>
    by_cases hc : isIdentifierStart c = true
    · obtain ⟨taken, after⟩ := cur.span isIdentifierPart
      simp [hc, ← String.toList_inj]
    · simp [hc]

theorem identifier_lt {cur next : Cursor} {name : String}
    (h : cur.identifier = some (name, next)) : next.rest.length < cur.rest.length := by
  obtain ⟨⟨c, cs, hrest, hc⟩, hspan⟩ := identifier_eq_some_iff.1 h
  obtain rfl : (cur.span isIdentifierPart).2 = next := congrArg Prod.snd hspan
  have hp : isIdentifierPart c = true := by simp [isIdentifierPart, hc]
  simp only [span, hrest, List.dropWhile_cons, hp, if_true, List.length_cons]
  exact Nat.lt_succ_of_le (List.dropWhile_sublist _).length_le

theorem closeBrace_splits {multiline : Bool} {depth : Nat} {cs : List Char}
    {r : List Char × List Char} (h : closeBrace multiline depth cs = some r) :
    cs = r.1 ++ '}' :: r.2 := by
  induction cs generalizing depth r with
  | nil => simp [closeBrace] at h
  | cons c cs ih =>
    -- whatever is not the last brace goes into the code
    have hpass : ∀ {depth : Nat}, (closeBrace multiline depth cs).map (fun r => (c :: r.1, r.2)) =
        some r → c :: cs = r.1 ++ '}' :: r.2 := by
      intro depth h
      obtain ⟨s, hs, rfl⟩ := Option.map_eq_some_iff.1 h
      rw [ih hs]
      rfl
    unfold closeBrace at h
    split at h
    · cases h
    · split at h
      · exact hpass h
      · split at h
        · rename_i hc
          split at h
          · cases h
            rw [hc]
            rfl
          · exact hpass h
        · exact hpass h

theorem closeBrace_lt {multiline : Bool} {depth : Nat} {cs : List Char}
    {r : List Char × List Char} (h : closeBrace multiline depth cs = some r) :
    r.2.length < cs.length := by
  rw [closeBrace_splits h, List.length_append, List.length_cons]
  omega

theorem code_lt {multiline : Bool} {cur next : Cursor} {code : List Char}
    (h : cur.code multiline = some (code, next)) : next.rest.length < cur.rest.length := by
  obtain ⟨r, hr, he⟩ := Option.map_eq_some_iff.1 h
  cases he
  exact closeBrace_lt hr

end Cursor

/-- The outcome of reading: a value and the cursor after it, or the fault that ends the file. -/
abbrev Read (α : Type) := Except (At SyntaxError) (α × Cursor)

/-- A format as it is written. -/
inductive WrittenFormat where
  | explicit (code : String)
  | shorthand (code : String)
deriving DecidableEq, Repr

/-- A message text as it is written, one character or one pair of braces at a time. -/
inductive Piece where
  | char (c : Char)
  | parameter (name : String) (format : Option WrittenFormat)
  | reference (name : String)
deriving DecidableEq, Repr

/-- Pieces, and the slips made in writing them. -/
structure Text where
  pieces : List Piece
  slips : List (At Slip)
deriving DecidableEq, Repr

/-- A statement of a message file. -/
inductive Statement where
  | comment
  | header (code : String)
  | directive (name : String) (args : List String)
  | message (key : String) (visibility : Visibility) (text : Text)
deriving DecidableEq, Repr

namespace Statement

def isHeader : Statement → Bool
  | header _ => true
  | _ => false

end Statement

namespace WrittenFormat

def toFormat : WrittenFormat → Format
  | explicit code => .explicit code
  | shorthand code => .ofShorthand code

/-- The hint comes from the code as it is written. -/
def hint : WrittenFormat → Hint
  | explicit code => .ofCode code
  | shorthand code => .ofCode code

end WrittenFormat

namespace Piece

def toPart : Piece → Part
  | char c => .text c.toString
  | parameter name format => .parameter name (format.map WrittenFormat.toFormat)
  | reference name => .reference name

def parameter? : Piece → Option Parameter
  | parameter name format => some ⟨name, (format.map WrittenFormat.hint).getD .unknown⟩
  | _ => none

end Piece

namespace Text

/-- The content that the pieces spell. -/
def content (t : Text) : List Part :=
  normalize (t.pieces.map Piece.toPart)

/-- The parameters that the pieces mention. -/
def parameters (t : Text) : ParameterSet :=
  .ofList (t.pieces.filterMap Piece.parameter?)

/-- Some text before `t`. -/
def before (first t : Text) : Text :=
  ⟨first.pieces ++ t.pieces, first.slips ++ t.slips⟩

def ofPiece (p : Piece) : Text := ⟨[p], []⟩
def ofSlip (s : Slip) (position : Position) : Text := ⟨[], [⟨s, position⟩]⟩

end Text

namespace Read

/-- End the reading at a place. -/
def fail {α : Type} (e : SyntaxError) (position : Position) : Except (At SyntaxError) α :=
  .error ⟨e, position⟩

/-! ## between the braces of a message -/

/-- A reference, after `{@`. -/
def reference (cur : Cursor) : Read Text :=
  match cur.identifier with
  | none => fail .noReferenceName cur.position
  | some (name, cur) =>
    match cur.skipInline.eat '}' with
    | none => fail (.openReference name) cur.skipInline.position
    | some next => .ok (.ofPiece (.reference name), next)

/-- The code of a format, after its mark. -/
def format (name : String) (cur : Cursor) : Read String :=
  match cur.code false with
  | none => fail (.unterminatedFormat name) cur.position
  | some (code, next) =>
    if trim code = [] then fail (.emptyFormat name) cur.position
    else .ok (String.ofList (trim code), next)

/-- The slip of naming a parameter by a reserved word. -/
def nameSlips (name : String) (position : Position) : List (At Slip) :=
  if isReserved name then [⟨.reservedParameter name, position⟩] else []

/-- What follows the name of a parameter: the closing brace, or a format. -/
def parameterEnd (name : String) (cur : Cursor) : Read (Option WrittenFormat) :=
  match cur.rest with
  | [] => fail .unterminatedText cur.position
  | c :: cs =>
    let next : Cursor := ⟨cs, cur.position.after c⟩
    if c = '}' then .ok (none, next)
    else if c = '|' then (format name next).map (fun r => (some (.explicit r.1), r.2))
    else if c = ':' then (format name next).map (fun r => (some (.shorthand r.1), r.2))
    else fail (.inParameter c name) cur.position

/-- A parameter, after `{`. -/
def parameter (cur : Cursor) : Read Text :=
  match cur.identifier with
  | none => fail .noParameterName cur.position
  | some (name, next) =>
    (parameterEnd name next.skipInline).map
      (fun r => (⟨[.parameter name r.1], nameSlips name cur.position⟩, r.2))

/-- What stands between braces, after the opening one. -/
def placeholder (cur : Cursor) : Read Text :=
  match cur.skipInline.eat '@' with
  | some next => reference next
  | none => parameter cur.skipInline

theorem reference_eq_ok_iff {cur next : Cursor} {found : Text} :
    reference cur = .ok (found, next) ↔ ∃ name after, cur.identifier = some (name, after) ∧
      after.skipInline.eat '}' = some next ∧ found = .ofPiece (.reference name) := by
  unfold reference
  constructor
  · intro h
    split at h
    · cases h
    · rename_i name after hid
      split at h
      · cases h
      · rename_i hclose
        cases h
        exact ⟨name, after, hid, hclose, rfl⟩
  · rintro ⟨name, after, hid, hclose, rfl⟩
    simp only [hid, hclose]

theorem format_eq_ok_iff {name code : String} {cur next : Cursor} :
    format name cur = .ok (code, next) ↔ ∃ written, cur.code false = some (written, next) ∧
      trim written ≠ [] ∧ code = String.ofList (trim written) := by
  unfold format
  constructor
  · intro h
    split at h
    · cases h
    · rename_i written after hcode
      split at h
      · cases h
      · rename_i htrim
        cases h
        exact ⟨written, hcode, htrim, rfl⟩
  · rintro ⟨written, hcode, htrim, rfl⟩
    simp only [hcode, if_neg htrim]

theorem parameterEnd_eq_ok_iff {name : String} {cur next : Cursor} {found : Option WrittenFormat} :
    parameterEnd name cur = .ok (found, next) ↔
      (cur.eat '}' = some next ∧ found = none) ∨
      ∃ after code, format name after = .ok (code, next) ∧
        (cur.eat '|' = some after ∧ found = some (.explicit code) ∨
          cur.eat ':' = some after ∧ found = some (.shorthand code)) := by
  unfold parameterEnd
  constructor
  · intro h
    split at h
    · cases h
    rename_i c cs hrest
    have heat : cur.eat c = some ⟨cs, cur.position.after c⟩ := Cursor.eat_eq_some_iff.2 ⟨hrest, rfl⟩
    simp only at h
    split at h
    · rename_i hc
      cases h
      exact .inl ⟨hc ▸ heat, rfl⟩
    split at h
    · rename_i hc
      obtain ⟨⟨code, last⟩, hformat, he⟩ := map_eq_ok_iff.1 h
      cases he
      exact .inr ⟨_, code, hformat, .inl ⟨hc ▸ heat, rfl⟩⟩
    split at h
    · rename_i hc
      obtain ⟨⟨code, last⟩, hformat, he⟩ := map_eq_ok_iff.1 h
      cases he
      exact .inr ⟨_, code, hformat, .inr ⟨hc ▸ heat, rfl⟩⟩
    · cases h
  · rintro (⟨heat, rfl⟩ | ⟨after, code, hformat, ⟨heat, rfl⟩ | ⟨heat, rfl⟩⟩)
    all_goals obtain ⟨hrest, hpos⟩ := Cursor.eat_eq_some_iff.1 heat
    · simp [hrest, ← hpos]
    · simp [hrest, ← hpos, hformat, Except.map]
    · simp [hrest, ← hpos, hformat, Except.map]

theorem parameter_eq_ok_iff {cur next : Cursor} {found : Text} :
    parameter cur = .ok (found, next) ↔ ∃ name after format, cur.identifier = some (name, after) ∧
      parameterEnd name after.skipInline = .ok (format, next) ∧
      found = ⟨[.parameter name format], nameSlips name cur.position⟩ := by
  unfold parameter
  constructor
  · intro h
    split at h
    · cases h
    · rename_i name after hid
      obtain ⟨⟨format, last⟩, hend, he⟩ := map_eq_ok_iff.1 h
      cases he
      exact ⟨name, after, format, hid, hend, rfl⟩
  · rintro ⟨name, after, format, hid, hend, rfl⟩
    simp only [hid, hend, Except.map]

theorem placeholder_eq_ok_iff {cur : Cursor} {r : Text × Cursor} :
    placeholder cur = .ok r ↔
      (∃ after, cur.skipInline.eat '@' = some after ∧ reference after = .ok r) ∨
      cur.skipInline.eat '@' = none ∧ parameter cur.skipInline = .ok r := by
  unfold placeholder
  cases cur.skipInline.eat '@' <;> simp

theorem reference_lt {cur next : Cursor} {found : Text} (h : reference cur = .ok (found, next)) :
    next.rest.length < cur.rest.length := by
  obtain ⟨name, after, hid, hclose, -⟩ := reference_eq_ok_iff.1 h
  have h1 := Cursor.identifier_lt hid
  have h2 := Cursor.skipInline_le after
  have h3 := Cursor.eat_lt hclose
  omega

theorem format_lt {name code : String} {cur next : Cursor} (h : format name cur = .ok (code, next)) :
    next.rest.length < cur.rest.length := by
  obtain ⟨written, hcode, -, -⟩ := format_eq_ok_iff.1 h
  exact Cursor.code_lt hcode

theorem parameterEnd_lt {name : String} {cur next : Cursor} {found : Option WrittenFormat}
    (h : parameterEnd name cur = .ok (found, next)) : next.rest.length < cur.rest.length := by
  rcases parameterEnd_eq_ok_iff.1 h with ⟨heat, -⟩ | ⟨after, code, hformat, ⟨heat, -⟩ | ⟨heat, -⟩⟩
  · exact Cursor.eat_lt heat
  · exact Nat.lt_trans (format_lt hformat) (Cursor.eat_lt heat)
  · exact Nat.lt_trans (format_lt hformat) (Cursor.eat_lt heat)

theorem parameter_lt {cur next : Cursor} {found : Text} (h : parameter cur = .ok (found, next)) :
    next.rest.length < cur.rest.length := by
  obtain ⟨name, after, format, hid, hend, -⟩ := parameter_eq_ok_iff.1 h
  have h1 := Cursor.identifier_lt hid
  have h2 := Cursor.skipInline_le after
  have h3 := parameterEnd_lt hend
  omega

theorem placeholder_lt {cur next : Cursor} {found : Text} (h : placeholder cur = .ok (found, next)) :
    next.rest.length < cur.rest.length := by
  have h0 := Cursor.skipInline_le cur
  rcases placeholder_eq_ok_iff.1 h with ⟨after, heat, href⟩ | ⟨-, hparam⟩
  · have h1 := Cursor.eat_lt heat
    have h2 := reference_lt href
    omega
  · exact Nat.lt_of_lt_of_le (parameter_lt hparam) h0

/-! ## the text of a message -/

/-- What a backslash and a character spell. -/
def escaped (c : Char) (position : Position) : Text :=
  match unescape c with
  | some v => .ofPiece (.char v)
  | none => .ofSlip (.unknownEscape c) position

/-- One piece of a text whose quote was opened at `start`, or nothing when the quote closes. -/
def textStep (quote : Char) (start : Position) (cur : Cursor) : Read (Option Text) :=
  match cur.rest with
  | [] => fail .unterminatedText start
  | c :: cs =>
    let next : Cursor := ⟨cs, cur.position.after c⟩
    if c = quote then .ok (none, next)
    else if c = '\n' then fail .unterminatedText start
    else if c = '\\' then
      match cs with
      | [] => fail .unterminatedText start
      | e :: es =>
        if e = '\n' then fail .unterminatedText start
        else .ok (some (escaped e cur.position), ⟨es, next.position.after e⟩)
    else if c = '{' then
      match next.eat '{' with
      | some after => .ok (some (.ofPiece (.char '{')), after)
      | none => (placeholder next).map (fun r => (some r.1, r.2))
    else if c = '}' then
      match next.eat '}' with
      | some after => .ok (some (.ofPiece (.char '}')), after)
      | none => .ok (some (.ofSlip .unmatchedBrace cur.position), next)
    else .ok (some (.ofPiece (.char c)), next)

/-- The ways in which a step over a text succeeds, with what is found and where the step ends. Where
the text was opened makes no difference. -/
inductive TextStep (quote : Char) (cur : Cursor) : Option Text → Cursor → Prop
  | closed {next : Cursor} (heat : cur.eat quote = some next) : TextStep quote cur none next
  | escape {next after : Cursor} {e : Char} (hquote : quote ≠ '\\') (hline : e ≠ '\n')
      (heat : cur.eat '\\' = some next) (hescaped : next.eat e = some after) :
      TextStep quote cur (some (escaped e cur.position)) after
  | pair {next after : Cursor} {brace : Char} (hquote : quote ≠ brace)
      (hbrace : brace = '{' ∨ brace = '}') (heat : cur.eat brace = some next)
      (hsecond : next.eat brace = some after) :
      TextStep quote cur (some (.ofPiece (.char brace))) after
  | placeholder {next after : Cursor} {found : Text} (hquote : quote ≠ '{')
      (heat : cur.eat '{' = some next) (hsecond : next.eat '{' = none)
      (hfound : Read.placeholder next = .ok (found, after)) : TextStep quote cur (some found) after
  | unmatched {next : Cursor} (hquote : quote ≠ '}') (heat : cur.eat '}' = some next)
      (hsecond : next.eat '}' = none) :
      TextStep quote cur (some (.ofSlip .unmatchedBrace cur.position)) next
  | plain {next : Cursor} {c : Char} (hquote : quote ≠ c) (hc : c ∉ ['\n', '\\', '{', '}'])
      (heat : cur.eat c = some next) : TextStep quote cur (some (.ofPiece (.char c))) next

theorem textStep_eq_ok_iff {quote : Char} {start : Position} {cur next : Cursor}
    {found : Option Text} :
    textStep quote start cur = .ok (found, next) ↔ TextStep quote cur found next := by
  unfold textStep
  constructor
  · intro h
    split at h
    · cases h
    rename_i c cs hrest
    have heat : cur.eat c = some ⟨cs, cur.position.after c⟩ := Cursor.eat_eq_some_iff.2 ⟨hrest, rfl⟩
    simp only at h
    split at h
    · rename_i hc
      cases h
      exact .closed (hc ▸ heat)
    rename_i hquote
    split at h
    · cases h
    rename_i hline
    split at h
    · rename_i hc
      subst hc
      split at h
      · cases h
      · rename_i e es
        split at h
        · cases h
        · rename_i he
          cases h
          exact .escape (Ne.symm hquote) he heat (Cursor.eat_eq_some_iff.2 ⟨rfl, rfl⟩)
    rename_i hslash
    split at h
    · rename_i hc
      subst hc
      split at h
      · rename_i hsecond
        cases h
        exact .pair (Ne.symm hquote) (.inl rfl) heat hsecond
      · rename_i hsecond
        obtain ⟨⟨inside, last⟩, hinside, he⟩ := map_eq_ok_iff.1 h
        cases he
        exact .placeholder (Ne.symm hquote) heat hsecond hinside
    rename_i hopen
    split at h
    · rename_i hc
      subst hc
      split at h
      · rename_i hsecond
        cases h
        exact .pair (Ne.symm hquote) (.inr rfl) heat hsecond
      · rename_i hsecond
        cases h
        exact .unmatched (Ne.symm hquote) heat hsecond
    · rename_i hclose
      cases h
      exact .plain (Ne.symm hquote) (by simp [hline, hslash, hopen, hclose]) heat
  · intro h
    cases h with
    | closed heat =>
      obtain ⟨hrest, hpos⟩ := Cursor.eat_eq_some_iff.1 heat
      simp [hrest, ← hpos]
    | escape hquote hline heat hescaped =>
      obtain ⟨hrest, hpos⟩ := Cursor.eat_eq_some_iff.1 heat
      obtain ⟨hrest', hpos'⟩ := Cursor.eat_eq_some_iff.1 hescaped
      simp [hrest, hrest', ← hpos, ← hpos', hquote.symm, hline]
    | pair hquote hbrace heat hsecond =>
      obtain ⟨hrest, hpos⟩ := Cursor.eat_eq_some_iff.1 heat
      rcases hbrace with rfl | rfl <;> simp [hrest, ← hpos, hquote.symm, hsecond]
    | placeholder hquote heat hsecond hfound =>
      obtain ⟨hrest, hpos⟩ := Cursor.eat_eq_some_iff.1 heat
      simp [hrest, ← hpos, hquote.symm, hsecond, hfound, Except.map]
    | unmatched hquote heat hsecond =>
      obtain ⟨hrest, hpos⟩ := Cursor.eat_eq_some_iff.1 heat
      simp [hrest, ← hpos, hquote.symm, hsecond]
    | plain hquote hc heat =>
      obtain ⟨hrest, hpos⟩ := Cursor.eat_eq_some_iff.1 heat
      simp only [List.mem_cons, List.not_mem_nil, or_false, not_or] at hc
      simp [hrest, ← hpos, hquote.symm, hc]

theorem textStep_lt {quote : Char} {start : Position} {cur next : Cursor} {found : Option Text}
    (h : textStep quote start cur = .ok (found, next)) : next.rest.length < cur.rest.length := by
  cases textStep_eq_ok_iff.1 h with
  | closed heat => exact Cursor.eat_lt heat
  | escape _ _ heat hescaped => exact Nat.lt_trans (Cursor.eat_lt hescaped) (Cursor.eat_lt heat)
  | pair _ _ heat hsecond => exact Nat.lt_trans (Cursor.eat_lt hsecond) (Cursor.eat_lt heat)
  | placeholder _ heat _ hfound => exact Nat.lt_trans (placeholder_lt hfound) (Cursor.eat_lt heat)
  | unmatched _ heat _ => exact Cursor.eat_lt heat
  | plain _ _ heat => exact Cursor.eat_lt heat

/-- The rest of a text whose quote was opened at `start`, and the closing quote. -/
def textBody (quote : Char) (start : Position) (cur : Cursor) : Read Text :=
  match _hs : textStep quote start cur with
  | .error e => .error e
  | .ok (none, next) => .ok (⟨[], []⟩, next)
  | .ok (some found, next) =>
    (textBody quote start next).map (fun r => (found.before r.1, r.2))
termination_by cur.rest.length
decreasing_by exact textStep_lt _hs

theorem textBody_lt {quote : Char} {start : Position} {cur : Cursor} {r : Text × Cursor}
    (h : textBody quote start cur = .ok r) : r.2.rest.length < cur.rest.length := by
  fun_induction textBody quote start cur generalizing r with
  | case1 cur e hs => cases h
  | case2 cur next hs => cases h; exact textStep_lt hs
  | case3 cur found next hs ih =>
    obtain ⟨a, ha, rfl⟩ := map_eq_ok_iff.1 h
    have := ih ha
    exact Nat.lt_trans this (textStep_lt hs)

/-- A quoted text. Either quote may open it and the same one closes it. -/
def text (cur : Cursor) : Read Text :=
  match cur.rest with
  | [] => fail .noText cur.position
  | c :: cs =>
    if c = '\'' || c = '"' then textBody c cur.position ⟨cs, cur.position.after c⟩
    else fail .noText cur.position

theorem text_eq_ok_iff {cur : Cursor} {r : Text × Cursor} :
    text cur = .ok r ↔ ∃ quote next, (quote = '\'' ∨ quote = '"') ∧ cur.eat quote = some next ∧
      textBody quote cur.position next = .ok r := by
  unfold text
  constructor
  · intro h
    split at h
    · cases h
    rename_i c cs hrest
    split at h
    · rename_i hc
      exact ⟨c, _, by simpa using hc, Cursor.eat_eq_some_iff.2 ⟨hrest, rfl⟩, h⟩
    · cases h
  · rintro ⟨quote, next, hquote, heat, h⟩
    obtain ⟨hrest, hpos⟩ := Cursor.eat_eq_some_iff.1 heat
    simp [hrest, ← hpos, hquote, h]

theorem text_lt {cur : Cursor} {r : Text × Cursor} (h : text cur = .ok r) :
    r.2.rest.length < cur.rest.length := by
  obtain ⟨quote, next, -, heat, hbody⟩ := text_eq_ok_iff.1 h
  exact Nat.lt_trans (textBody_lt hbody) (Cursor.eat_lt heat)

/-! ## statements -/

/-- The end of a statement: blanks, perhaps a comment, and the end of the line. -/
def lineEnd (fault : Char → SyntaxError) (cur : Cursor) : Except (At SyntaxError) Cursor :=
  let cur := cur.skipInline
  match cur.rest with
  | [] => .ok cur
  | c :: _ =>
    if c = '\n' then .ok cur
    else if c = '#' then .ok cur.skipLine
    else fail (fault c) cur.position

/-- A header block, after `@{`. A file has one at most. -/
def header (seen : Bool) (start : Position) (cur : Cursor) : Read Statement :=
  match cur.code true with
  | none => fail .unterminatedHeader start
  | some (code, next) =>
    if seen then fail .secondHeader start
    else (lineEnd .afterHeader next).map (fun next => (.header (String.ofList (trim code)), next))

/-- The arguments of a directive: the non-empty stretches between commas and blanks. -/
def arguments (cs : List Char) : List String :=
  let split := cs.foldr
    (fun c (r : List Char × List String) =>
      if c = ',' || isBlank c then ([], if r.1.isEmpty then r.2 else String.ofList r.1 :: r.2)
      else (c :: r.1, r.2))
    ([], [])
  if split.1.isEmpty then split.2 else String.ofList split.1 :: split.2

/-- A directive, after `@`. Its arguments end at the end of the line or at a comment. -/
def directive (cur : Cursor) : Read Statement :=
  match cur.identifier with
  | none => fail .noDirectiveName cur.position
  | some (name, next) =>
    let args := (next.span (fun c => c != '\n' && c != '#')).1
    .ok (.directive name (arguments args), next.skipLine)

/-- The key of a message: plain, or in parentheses if the message is hidden. -/
def key (cur : Cursor) : Read (String × Visibility) :=
  match cur.eat '(' with
  | some next =>
    let start := next.skipInline
    match start.identifier with
    | none => fail .noHiddenKey start.position
    | some (name, next) =>
      match next.skipInline.eat ')' with
      | none => fail .noHiddenKey next.skipInline.position
      | some after => .ok ((name, .hidden), after)
  | none =>
    match cur.identifier with
    | none => fail .noHiddenKey cur.position
    | some (name, next) => .ok ((name, .exposed), next)

/-- A message: its key, an equals sign and its text. -/
def message (cur : Cursor) : Read Statement :=
  match key cur with
  | .error e => .error e
  | .ok ((name, visibility), next) =>
    match next.skipInline.eat '=' with
    | none => fail (.noEquals name) next.skipInline.position
    | some next =>
      match text next.skipInline with
      | .error e => .error e
      | .ok (text, next) =>
        (lineEnd .afterMessage next).map (fun next => (.message name visibility text, next))

/-- The statement that begins with `c`, which `next` stands after. `seen` tells whether the file
already has its header. -/
def statement (seen : Bool) (cur : Cursor) (c : Char) (next : Cursor) : Read Statement :=
  if c = '#' then .ok (.comment, next.skipLine)
  else if c = '@' then
    match next.eat '{' with
    | some next => header seen cur.position next
    | none => directive next
  else if c = '(' || isIdentifierStart c then message cur
  else fail (.unexpected c) cur.position

theorem lineEnd_eq_ok_iff {fault : Char → SyntaxError} {cur next : Cursor} :
    lineEnd fault cur = .ok next ↔
      ((∀ c ∈ cur.skipInline.rest.head?, c = '\n') ∧ next = cur.skipInline) ∨
      (cur.skipInline.rest.head? = some '#' ∧ next = cur.skipInline.skipLine) := by
  unfold lineEnd
  simp only
  constructor
  · intro h
    split at h
    · rename_i hrest
      cases h
      exact .inl ⟨by simp [hrest], rfl⟩
    rename_i c cs hrest
    split at h
    · rename_i hc
      cases h
      exact .inl ⟨by simp [hrest, hc], rfl⟩
    split at h
    · rename_i hc
      cases h
      exact .inr ⟨by simp [hrest, hc], rfl⟩
    · cases h
  · rintro (⟨hend, rfl⟩ | ⟨hsign, rfl⟩)
    · cases hrest : cur.skipInline.rest with
      | nil => rfl
      | cons c cs =>
        obtain rfl := hend c (by rw [hrest]; rfl)
        rfl
    · obtain ⟨cs, hrest⟩ := List.head?_eq_some_iff.1 hsign
      rw [hrest]
      rfl

theorem header_eq_ok_iff {seen : Bool} {start : Position} {cur next : Cursor} {s : Statement} :
    header seen start cur = .ok (s, next) ↔ seen = false ∧ ∃ code after,
      cur.code true = some (code, after) ∧ lineEnd .afterHeader after = .ok next ∧
        s = .header (String.ofList (trim code)) := by
  unfold header
  constructor
  · intro h
    split at h
    · cases h
    · rename_i code after hcode
      split at h
      · cases h
      · rename_i hseen
        obtain ⟨last, hend, he⟩ := map_eq_ok_iff.1 h
        cases he
        exact ⟨by simpa using hseen, code, after, hcode, hend, rfl⟩
  · rintro ⟨rfl, code, after, hcode, hend, rfl⟩
    simp [hcode, hend, Except.map]

theorem directive_eq_ok_iff {cur next : Cursor} {s : Statement} :
    directive cur = .ok (s, next) ↔ ∃ name after, cur.identifier = some (name, after) ∧
      next = after.skipLine ∧
      s = .directive name (arguments (after.span (fun c => c != '\n' && c != '#')).1) := by
  unfold directive
  constructor
  · intro h
    split at h
    · cases h
    · rename_i name after hid
      cases h
      exact ⟨name, after, hid, rfl, rfl⟩
  · rintro ⟨name, after, hid, rfl, rfl⟩
    simp only [hid]

theorem key_eq_ok_iff {cur next : Cursor} {name : String} {visibility : Visibility} :
    key cur = .ok ((name, visibility), next) ↔
      (visibility = .hidden ∧ ∃ opened after, cur.eat '(' = some opened ∧
        opened.skipInline.identifier = some (name, after) ∧ after.skipInline.eat ')' = some next) ∨
      (visibility = .exposed ∧ cur.eat '(' = none ∧ cur.identifier = some (name, next)) := by
  unfold key
  constructor
  · intro h
    split at h
    · rename_i opened hopen
      simp only at h
      split at h
      · cases h
      · rename_i hid
        split at h
        · cases h
        · rename_i hclose
          cases h
          exact .inl ⟨rfl, opened, _, hopen, hid, hclose⟩
    · rename_i hopen
      split at h
      · cases h
      · rename_i hid
        cases h
        exact .inr ⟨rfl, hopen, hid⟩
  · rintro (⟨rfl, opened, after, hopen, hid, hclose⟩ | ⟨rfl, hopen, hid⟩)
    · simp only [hopen, hid, hclose]
    · simp only [hopen, hid]

theorem message_eq_ok_iff {cur next : Cursor} {s : Statement} :
    message cur = .ok (s, next) ↔ ∃ name visibility t afterKey value afterText,
      key cur = .ok ((name, visibility), afterKey) ∧ afterKey.skipInline.eat '=' = some value ∧
      text value.skipInline = .ok (t, afterText) ∧ lineEnd .afterMessage afterText = .ok next ∧
      s = .message name visibility t := by
  unfold message
  constructor
  · intro h
    split at h
    · cases h
    rename_i name visibility afterKey hkey
    split at h
    · cases h
    rename_i value heat
    split at h
    · cases h
    rename_i t afterText htext
    obtain ⟨last, hend, he⟩ := map_eq_ok_iff.1 h
    cases he
    exact ⟨name, visibility, t, afterKey, value, afterText, hkey, heat, htext, hend, rfl⟩
  · rintro ⟨name, visibility, t, afterKey, value, afterText, hkey, heat, htext, hend, rfl⟩
    simp only [hkey, heat, htext, hend, Except.map]

/-- The ways in which a statement is read, by the character it begins with. -/
inductive StatementStep (seen : Bool) (cur : Cursor) (c : Char) (next : Cursor) :
    Statement × Cursor → Prop
  | comment (hc : c = '#') : StatementStep seen cur c next (.comment, next.skipLine)
  | header {opened : Cursor} {r : Statement × Cursor} (hc : c = '@') (hopen : next.eat '{' = some opened)
      (h : Read.header seen cur.position opened = .ok r) : StatementStep seen cur c next r
  | directive {r : Statement × Cursor} (hc : c = '@') (hopen : next.eat '{' = none)
      (h : Read.directive next = .ok r) : StatementStep seen cur c next r
  | message {r : Statement × Cursor} (hc : c = '(' ∨ isIdentifierStart c = true)
      (h : Read.message cur = .ok r) : StatementStep seen cur c next r

theorem statement_eq_ok_iff {seen : Bool} {cur next : Cursor} {c : Char} {r : Statement × Cursor} :
    statement seen cur c next = .ok r ↔ StatementStep seen cur c next r := by
  unfold statement
  constructor
  · intro h
    split at h
    · rename_i hc
      cases h
      exact .comment hc
    split at h
    · rename_i hc
      split at h
      · rename_i hopen
        exact .header hc hopen h
      · rename_i hopen
        exact .directive hc hopen h
    split at h
    · rename_i hc
      exact .message (by simpa using hc) h
    · cases h
  · intro h
    cases h with
    | comment hc => simp [hc]
    | header hc hopen h => simp [hc, hopen, h]
    | directive hc hopen h => simp [hc, hopen, h]
    | message hc h =>
      have hsigns : c ≠ '#' ∧ c ≠ '@' := by
        constructor <;> rintro rfl <;> revert hc <;> decide
      simp [hsigns, hc, h]

theorem lineEnd_le {fault : Char → SyntaxError} {cur next : Cursor}
    (h : lineEnd fault cur = .ok next) : next.rest.length ≤ cur.rest.length := by
  have hskip := Cursor.skipInline_le cur
  rcases lineEnd_eq_ok_iff.1 h with ⟨-, rfl⟩ | ⟨-, rfl⟩
  · exact hskip
  · exact Nat.le_trans (Cursor.skipLine_le _) hskip

theorem header_lt {seen : Bool} {start : Position} {cur next : Cursor} {s : Statement}
    (h : header seen start cur = .ok (s, next)) : next.rest.length < cur.rest.length := by
  obtain ⟨-, code, after, hcode, hend, -⟩ := header_eq_ok_iff.1 h
  exact Nat.lt_of_le_of_lt (lineEnd_le hend) (Cursor.code_lt hcode)

theorem directive_lt {cur next : Cursor} {s : Statement} (h : directive cur = .ok (s, next)) :
    next.rest.length < cur.rest.length := by
  obtain ⟨name, after, hid, rfl, -⟩ := directive_eq_ok_iff.1 h
  exact Nat.lt_of_le_of_lt (Cursor.skipLine_le _) (Cursor.identifier_lt hid)

theorem key_lt {cur next : Cursor} {k : String × Visibility} (h : key cur = .ok (k, next)) :
    next.rest.length < cur.rest.length := by
  rcases key_eq_ok_iff.1 h with ⟨-, opened, after, hopen, hid, hclose⟩ | ⟨-, -, hid⟩
  · have h1 := Cursor.eat_lt hopen
    have h2 := Cursor.skipInline_le opened
    have h3 := Cursor.identifier_lt hid
    have h4 := Cursor.skipInline_le after
    have h5 := Cursor.eat_lt hclose
    omega
  · exact Cursor.identifier_lt hid

theorem message_lt {cur next : Cursor} {s : Statement} (h : message cur = .ok (s, next)) :
    next.rest.length < cur.rest.length := by
  obtain ⟨_, _, _, afterKey, value, afterText, hkey, heat, htext, hend, -⟩ := message_eq_ok_iff.1 h
  have h1 := key_lt hkey
  have h2 := Cursor.skipInline_le afterKey
  have h3 := Cursor.eat_lt heat
  have h4 := Cursor.skipInline_le value
  have h5 := text_lt htext
  have h6 := lineEnd_le hend
  simp only at h5
  omega

theorem statement_lt {seen : Bool} {cur : Cursor} {c : Char} {cs : List Char}
    {r : Statement × Cursor} (hrest : cur.rest = c :: cs)
    (h : statement seen cur c ⟨cs, cur.position.after c⟩ = .ok r) :
    r.2.rest.length < cur.rest.length := by
  have hnext : cs.length < cur.rest.length := by
    rw [hrest]
    exact Nat.lt_succ_self _
  cases statement_eq_ok_iff.1 h with
  | comment _ => exact Nat.lt_of_le_of_lt (Cursor.skipLine_le _) hnext
  | header _ hopen h => exact Nat.lt_trans (header_lt h) (Nat.lt_trans (Cursor.eat_lt hopen) hnext)
  | directive _ _ h => exact Nat.lt_trans (directive_lt h) hnext
  | message _ h => exact message_lt h

/-- The statements of a file, with the places where they begin. -/
def statements (seen : Bool) (cur : Cursor) : Except (At SyntaxError) (List (At Statement)) :=
  match _hrest : (cur.skip isBlank).rest with
  | [] => .ok []
  | c :: cs =>
    let here := cur.skip isBlank
    match _hs : statement seen here c ⟨cs, here.position.after c⟩ with
    | .error e => .error e
    | .ok (s, next) =>
      (statements (seen || s.isHeader) next).map (fun rest => ⟨s, here.position⟩ :: rest)
termination_by cur.rest.length
decreasing_by exact Nat.lt_of_lt_of_le (statement_lt _hrest _hs) (Cursor.skip_le _ _)

end Read

/-! ## the document -/

/-- A document in the making, with the slips found so far. -/
structure Draft where
  document : Document := {}
  slips : List (At Slip) := []
deriving DecidableEq, Repr

namespace Draft

/-- Take a directive into the document, or note why not. -/
def addDirective (d : Draft) (name : String) (args : List String) (position : Position) : Draft :=
  match (Directive.build name args).bind (Directive.addTo d.document.directives) with
  | .ok directives => { d with document := { d.document with directives } }
  | .error fault => { d with slips := d.slips ++ [⟨.directive fault, position⟩] }

/-- Take one more statement into the document. -/
def add (d : Draft) (s : At Statement) : Draft :=
  match s.value with
  | .comment => d
  | .header code => { d with document := { d.document with header := some code } }
  | .directive name args => d.addDirective name args s.position
  | .message key visibility text =>
    let definition : Definition :=
      ⟨key, visibility, text.content, text.parameters, s.position⟩
    { document := { d.document with definitions := d.document.definitions ++ [definition] }
      slips := d.slips ++ text.slips }

end Draft

/-- The mark that some editors put before a text. -/
def byteOrderMark : Char := '\uFEFF'

/-- A text without one byte-order mark at its beginning. -/
def dropMark : List Char → List Char
  | c :: cs => if c = byteOrderMark then cs else c :: cs
  | [] => []

/-- The document that a source text spells, with the slips in it. -/
def Document.read (source : String) : Except (At SyntaxError) Draft :=
  (Read.statements false (.ofText (dropMark source.toList))).map (fun ss => ss.foldl Draft.add {})

end Polyglot
