import Polyglot.Document.Reader
import Polyglot.Proofs.NormalForm
import Polyglot.Proofs.Parameters
import Mathlib.Data.List.Infix

/-!
# Writing message files

A message file is written line by line: headers, directives and messages, in any order. Each message
is written in either of the two quotes.

* `Quote.escape`, `Piece.chars`, `Line.chars`: the written forms;
* `sourceText`: the text of a file with these lines;
* `Line.Renderable`, `Renderable`: what can be written so that it is read back;
* `WrittenMessage.entry`: the message that is meant, with the formats as they are stored.

Text is written one character at a time, as it is read, so the content of a written message is the
normal form of its pieces (`content_pieces`).
-/

namespace Polyglot

/-- Each brace that closes was opened before, and all are closed in the end. -/
def Balanced (cs : List Char) : Prop :=
  (∀ p, p <+: cs → p.count '}' ≤ p.count '{') ∧ cs.count '{' = cs.count '}'

instance (cs : List Char) : Decidable (Balanced cs) :=
  decidable_of_iff ((∀ p ∈ cs.inits, p.count '}' ≤ p.count '{') ∧ cs.count '{' = cs.count '}') (by
    simp only [Balanced, List.mem_inits])

/-- The quotes that a text can stand in. -/
inductive Quote where
  | single
  | double
deriving DecidableEq, Repr

namespace Quote

def char : Quote → Char
  | single => '\''
  | double => '"'

/-- A character of a text that stands in these quotes. -/
def escape (q : Quote) (c : Char) : List Char :=
  if c = '\\' then ['\\', '\\']
  else if c = q.char then ['\\', c]
  else if c = '\n' then ['\\', 'n']
  else if c = '{' || c = '}' then [c, c]
  else [c]

end Quote

namespace WrittenFormat

def chars : WrittenFormat → List Char
  | explicit code => '|' :: code.toList
  | shorthand code => ':' :: code.toList

def code : WrittenFormat → String
  | explicit code => code
  | shorthand code => code

/-- The format that is meant. A shorthand is stored with the name of the formatter before it. -/
def stored : WrittenFormat → Format
  | explicit code => .explicit code
  | shorthand code => .shorthand ("$f." ++ code)

lemma toFormat_eq_stored (f : WrittenFormat) : f.toFormat = f.stored := by
  cases f with
  | explicit code => rfl
  | shorthand code =>
    have hmark : formatterName ++ "." = "$f." := by decide
    rw [toFormat, Format.ofShorthand, hmark, stored]

/-- The code is on one line, is not empty, has no blank at its ends, and its braces balance. -/
def Renderable (f : WrittenFormat) : Prop :=
  f.code ≠ "" ∧ trim f.code.toList = f.code.toList ∧ '\n' ∉ f.code.toList ∧ Balanced f.code.toList

instance (f : WrittenFormat) : Decidable f.Renderable :=
  inferInstanceAs (Decidable (_ ∧ _ ∧ _ ∧ _))

end WrittenFormat

namespace Piece

/-- A piece of a text that stands in these quotes. -/
def chars (q : Quote) : Piece → List Char
  | char c => q.escape c
  | parameter name format =>
    '{' :: (name.toList ++ ((format.map WrittenFormat.chars).getD [] ++ ['}']))
  | reference name => '{' :: '@' :: (name.toList ++ ['}'])

/-- The names can be read, and so can the format. -/
def Renderable : Piece → Prop
  | char _ => True
  | parameter name format =>
    isIdentifier name = true ∧ isReserved name = false ∧ ∀ f ∈ format, f.Renderable
  | reference name => isIdentifier name = true

instance (p : Piece) : Decidable p.Renderable :=
  match p with
  | char _ => inferInstanceAs (Decidable True)
  | parameter _ _ => inferInstanceAs (Decidable (_ ∧ _ ∧ _))
  | reference _ => inferInstanceAs (Decidable (_ = _))

end Piece

/-- A part of a message, with its format as it is written. -/
inductive WrittenPart where
  | text (value : String)
  | parameter (name : String) (format : Option WrittenFormat)
  | reference (name : String)
deriving DecidableEq, Repr

namespace WrittenPart

def pieces : WrittenPart → List Piece
  | text value => value.toList.map .char
  | parameter name format => [.parameter name format]
  | reference name => [.reference name]

/-- The part that is meant. -/
def toPart : WrittenPart → Part
  | text value => .text value
  | parameter name format => .parameter name (format.map WrittenFormat.stored)
  | reference name => .reference name

/-- The parameter that a part mentions. The hint comes from the code as it is written. -/
def mention? : WrittenPart → Option Parameter
  | parameter name format => some ⟨name, (format.map WrittenFormat.hint).getD .unknown⟩
  | _ => none

end WrittenPart

/-- A message, and the quotes that it is written in. -/
structure WrittenMessage where
  key : String
  visibility : Visibility
  content : List WrittenPart
  quote : Quote
deriving DecidableEq, Repr

namespace WrittenMessage

def pieces (m : WrittenMessage) : List Piece :=
  m.content.flatMap WrittenPart.pieces

def keyChars (m : WrittenMessage) : List Char :=
  match m.visibility with
  | .exposed => m.key.toList
  | .hidden => '(' :: (m.key.toList ++ [')'])

def chars (m : WrittenMessage) : List Char :=
  m.keyChars ++ (' ' :: '=' :: ' ' :: m.quote.char ::
    (m.pieces.flatMap (Piece.chars m.quote) ++ [m.quote.char]))

/-- The key and all names can be read, and the content is in normal form. -/
def Renderable (m : WrittenMessage) : Prop :=
  isIdentifier m.key = true ∧ (∀ p ∈ m.pieces, p.Renderable) ∧
    normalize (m.content.map WrittenPart.toPart) = m.content.map WrittenPart.toPart

instance (m : WrittenMessage) : Decidable m.Renderable :=
  inferInstanceAs (Decidable (_ ∧ _ ∧ _))

/-- The parameters: each name once, in the order of first mention, with all its hints merged. -/
def parameters (m : WrittenMessage) : ParameterSet :=
  ParameterSet.firstMentions (m.content.filterMap WrittenPart.mention?)

/-- The key and the message that is meant. -/
def entry (m : WrittenMessage) : String × Message :=
  (m.key, ⟨m.visibility, m.content.map WrittenPart.toPart, m.parameters⟩)

end WrittenMessage

/-- A line of a message file. A header may go over several. -/
inductive Line where
  | header (code : String)
  | directive (d : Directive)
  | message (m : WrittenMessage)
deriving DecidableEq, Repr

namespace Line

def chars : Line → List Char
  | header code => '@' :: '{' :: ' ' :: (code.toList ++ [' ', '}'])
  | directive d => d.written.toList
  | message m => m.chars

def Renderable : Line → Prop
  | header code => trim code.toList = code.toList ∧ Balanced code.toList
  | directive _ => True
  | message m => m.Renderable

instance (l : Line) : Decidable l.Renderable :=
  match l with
  | header _ => inferInstanceAs (Decidable (_ ∧ _))
  | directive _ => inferInstanceAs (Decidable True)
  | message m => inferInstanceAs (Decidable m.Renderable)

/-- The statement that the line says. -/
def statement : Line → Statement
  | header code => .header code
  | directive d => .directive d.name []
  | message m => .message m.key m.visibility ⟨m.pieces, []⟩

def header? : Line → Option String
  | header code => some code
  | _ => none

def directive? : Line → Option Directive
  | directive d => some d
  | _ => none

def message? : Line → Option WrittenMessage
  | message m => some m
  | _ => none

end Line

def linesChars (lines : List Line) : List Char :=
  lines.flatMap fun l => l.chars ++ ['\n']

/-- The text of a file with these lines. -/
def sourceText (lines : List Line) : String :=
  String.ofList (linesChars lines)

/-- Each line can be read, and there is at most one header and at most one directive. -/
def Renderable (lines : List Line) : Prop :=
  (∀ l ∈ lines, l.Renderable) ∧ (lines.filterMap Line.header?).length ≤ 1 ∧
    (lines.filterMap Line.directive?).length ≤ 1

instance (lines : List Line) : Decidable (Renderable lines) :=
  inferInstanceAs (Decidable (_ ∧ _ ∧ _))

/-! ### The content and the parameters of the pieces -/

/-- **The content of the pieces is the normal form of the parts.** -/
theorem content_pieces (content : List WrittenPart) :
    normalize ((content.flatMap WrittenPart.pieces).map Piece.toPart) =
      normalize (content.map WrittenPart.toPart) := by
  induction content with
  | nil => rfl
  | cons part content ih =>
    rw [List.flatMap_cons, List.map_append, normalize_append, ih]
    cases part with
    | text value =>
      show ((value.toList.map Piece.char).map Piece.toPart).foldr _ _ = Part.cons (.text value) _
      rw [List.map_map]
      show (value.toList.map fun c => Part.text c.toString).foldr _ _ = Part.cons (.text value) _
      rw [foldr_chars, String.ofList_toList]
      rfl
    | parameter name format =>
      have hformat : format.map WrittenFormat.toFormat = format.map WrittenFormat.stored := by
        cases format with
        | none => rfl
        | some f => rw [Option.map_some, Option.map_some, f.toFormat_eq_stored]
      show Part.parameter name (format.map WrittenFormat.toFormat) :: _ = _
      rw [hformat]
      rfl
    | reference name => rfl

theorem parameters_pieces (content : List WrittenPart) :
    (content.flatMap WrittenPart.pieces).filterMap Piece.parameter? =
      content.filterMap WrittenPart.mention? := by
  induction content with
  | nil => rfl
  | cons part content ih =>
    rw [List.flatMap_cons, List.filterMap_append, ih]
    cases part with
    | text value =>
      have hnone : (value.toList.map Piece.char).filterMap Piece.parameter? = [] := by
        simp [Piece.parameter?]
      show (value.toList.map Piece.char).filterMap Piece.parameter? ++ _ = _
      rw [hnone]
      rfl
    | parameter name format => rfl
    | reference name => rfl

end Polyglot
