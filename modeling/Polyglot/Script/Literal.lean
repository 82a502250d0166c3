import Polyglot.Text.Occurrences

/-!
# Literals

Texts as string literals and as the fixed parts of template literals.

* `quoteString`: a string literal, in the quotes that need fewer escapes.
* `escapeTemplate`: text between the backquotes of a template literal.
-/

namespace Polyglot.Script

/-- A character in a literal: some are written with a backslash and a letter. -/
def escapeChar : Char → List Char
  | '\\' => ['\\', '\\']
  | '\x00' => ['\\', '0']
  | '\n' => ['\\', 'n']
  | '\r' => ['\\', 'r']
  | '\x0B' => ['\\', 'v']
  | '\t' => ['\\', 't']
  | '\x08' => ['\\', 'b']
  | '\x0C' => ['\\', 'f']
  | c => [c]

/-- A text between two `quote`s. -/
def escapeQuoted (quote : Char) (cs : List Char) : List Char :=
  cs.flatMap (fun c => if c = quote then ['\\', quote] else escapeChar c)

/-- The quote that occurs less often in a text, the single one if they occur equally often. -/
def chooseQuote (cs : List Char) : Char :=
  if countIn ['"'] cs < countIn ['\''] cs then '"' else '\''

theorem chooseQuote_eq (cs : List Char) :
    chooseQuote cs = if cs.count '"' < cs.count '\'' then '"' else '\'' := by
  rw [chooseQuote, countIn_singleton, countIn_singleton]

theorem chooseQuote_cases (cs : List Char) : chooseQuote cs = '\'' ∨ chooseQuote cs = '"' := by
  unfold chooseQuote
  split
  · exact .inr rfl
  · exact .inl rfl

/-- The string literal of a text, on characters. -/
def quoteChars (cs : List Char) : List Char :=
  let quote := chooseQuote cs
  quote :: escapeQuoted quote cs ++ [quote]

/-- The string literal of a text. -/
def quoteString (text : String) : String :=
  String.ofList (quoteChars text.toList)

/-- A text between the backquotes of a template literal. Besides the characters of `escapeChar`,
the backquote and the mark that opens a substitution get a backslash. -/
def escapeTemplateChars : List Char → List Char
  | [] => []
  | '$' :: '{' :: cs => '\\' :: '$' :: '{' :: escapeTemplateChars cs
  | c :: cs => (if c = '\x60' then ['\\', c] else escapeChar c) ++ escapeTemplateChars cs

def escapeTemplate (text : String) : String :=
  String.ofList (escapeTemplateChars text.toList)

end Polyglot.Script
