/-!
# Identifiers

Names that generated code may declare: ASCII letters, digits, `_` and `$`, not starting with a
digit.

* `isIdentifier`: the test.
* `isReserved`: the words that are identifiers in shape and still name no parameter.
* `toIdentifier`: an identifier for any text.
-/

namespace Polyglot

/-- A character that may begin an identifier. -/
def isIdentifierStart (c : Char) : Bool :=
  c.isAlpha || c == '_' || c == '$'

/-- A character that may go on in an identifier. -/
def isIdentifierPart (c : Char) : Bool :=
  isIdentifierStart c || c.isDigit

/-- The test on characters: a start, then parts only. -/
def isIdentifierChars : List Char → Bool
  | [] => false
  | c :: cs => isIdentifierStart c && cs.all isIdentifierPart

def isIdentifier (name : String) : Bool :=
  isIdentifierChars name.toList

theorem exists_cons_of_isIdentifier {name : String} (h : isIdentifier name = true) :
    ∃ c cs, name.toList = c :: cs ∧ isIdentifierStart c = true ∧
      ∀ d ∈ name.toList, isIdentifierPart d = true := by
  unfold isIdentifier at h
  cases hcs : name.toList with
  | nil => rw [hcs] at h; cases h
  | cons c cs =>
    rw [hcs] at h
    obtain ⟨hstart, hparts⟩ := Bool.and_eq_true_iff.1 h
    refine ⟨c, cs, rfl, hstart, ?_⟩
    intro d hd
    rcases List.mem_cons.1 hd with rfl | hd
    · simp [isIdentifierPart, hstart]
    · exact List.all_eq_true.1 hparts d hd

/-- Words that TypeScript keeps for itself in strict mode, so that no parameter may be called so. -/
def reservedWords : List String :=
  ["arguments", "await", "break", "case", "catch", "class", "const", "continue", "debugger",
    "default", "delete", "do", "else", "enum", "eval", "export", "extends", "false", "finally",
    "for", "function", "if", "implements", "import", "in", "instanceof", "interface", "let",
    "new", "null", "package", "private", "protected", "public", "return", "static", "super",
    "switch", "this", "throw", "true", "try", "typeof", "var", "void", "while", "with", "yield"]

def isReserved (name : String) : Bool :=
  reservedWords.contains name

/-- An underscore stands for every character that is no identifier part. -/
def maskPart (c : Char) : Char :=
  if isIdentifierPart c then c else '_'

/-- The identifier made from a text, on characters. -/
def toIdentifierChars (cs : List Char) : List Char :=
  let masked := cs.map maskPart
  match masked with
  | [] => ['_']
  | c :: _ => if isIdentifierStart c then masked else '_' :: masked

/-- The identifier made from a text: forbidden characters become `_`, and a text that does not
begin like an identifier gets a leading `_`. -/
def toIdentifier (name : String) : String :=
  String.ofList (toIdentifierChars name.toList)

end Polyglot
