/-!
# Wildcard patterns

Patterns for names: a question mark stands for one character, a star for any number of them,
brackets for one character out of some, and two stars for whole directories. There is no escape; a
bracket takes away the meaning of the character inside it.

* `Wildcard.parse`: reads a pattern, or says where it goes wrong.
* `Wildcard.accepts`: whether a name fits a pattern.
-/

namespace Polyglot

/-- The characters from `first` to `last`, none if they are the wrong way round. -/
structure CharRange where
  first : Char
  last : Char
deriving DecidableEq, Repr

inductive WildcardToken where
  | exactly (c : Char)
  /-- Any one character. -/
  | anyChar
  /-- One character in these ranges. -/
  | within (ranges : List CharRange)
  /-- One character outside these ranges. -/
  | except (ranges : List CharRange)
  /-- Any characters, or none. -/
  | anySequence
  /-- Whole directories, each with the slash behind it, or all that is left. -/
  | anyDirectories
deriving DecidableEq, Repr

inductive WildcardFault where
  /-- Three stars or more in a row. -/
  | tooManyStars
  /-- Two stars next to something other than a slash. -/
  | partOfComponent
  /-- A bracket that is never closed, or that is empty. -/
  | openBracket
deriving DecidableEq, Repr

structure WildcardError where
  fault : WildcardFault
  /-- How many characters come before the place. -/
  position : Nat
deriving DecidableEq, Repr

/-- A pattern as it was written, and what it means. -/
structure Wildcard where
  text : String
  tokens : List WildcardToken
deriving DecidableEq, Repr

namespace CharRange

def contains (r : CharRange) (c : Char) : Bool :=
  r.first ≤ c && c ≤ r.last

/-- The ranges that stand between brackets. A hyphen makes a range of its two neighbours, and
stands for itself if it has not both. -/
def readAll : List Char → List CharRange
  | a :: '-' :: b :: cs => ⟨a, b⟩ :: readAll cs
  | a :: cs => ⟨a, a⟩ :: readAll cs
  | [] => []

end CharRange

namespace WildcardError

def message (e : WildcardError) : String :=
  let reason := match e.fault with
    | .tooManyStars => "wildcards are either regular `*` or recursive `**`"
    | .partOfComponent => "recursive wildcards must form a single path component"
    | .openBracket => "invalid range pattern"
  "Pattern syntax error near position " ++ toString e.position ++ ": " ++ reason

end WildcardError

namespace Wildcard

/-! ## reading patterns -/

theorem length_lt_of_dropWhile {p : Char → Bool} {cs rest : List Char} {c d : Char}
    (h : cs.dropWhile p = d :: rest) : rest.length < (c :: cs).length := by
  have hle := (List.dropWhile_suffix (l := cs) p).length_le
  rw [h] at hle
  simp only [List.length_cons] at hle ⊢
  omega

/-- Read brackets whose opening one is gone. The first character inside is never the closing
bracket. The rest is shorter than the text. -/
def readBracket : (cs : List Char) →
    Option (List CharRange × { rest : List Char // rest.length < cs.length })
  | [] => none
  | c :: cs =>
    match h : cs.dropWhile (· != ']') with
    | [] => none
    | _ :: rest =>
      some (CharRange.readAll (c :: cs.takeWhile (· != ']')), ⟨rest, length_lt_of_dropWhile h⟩)

/-- Read a pattern from `position` on. Two stars are allowed only at the start of a component,
which `fresh` tells. -/
def readTokens (fresh : Bool) (position : Nat) :
    List Char → Except WildcardError (List WildcardToken)
  | [] => .ok []
  | '?' :: cs => (readTokens false (position + 1) cs).map (.anyChar :: ·)
  | '*' :: '*' :: '*' :: _ => .error ⟨.tooManyStars, position + 2⟩
  | '*' :: '*' :: cs =>
    if !fresh then .error ⟨.partOfComponent, position - 1⟩
    else match cs with
      | [] => .ok [.anyDirectories]
      | '/' :: cs => (readTokens true (position + 3) cs).map (.anyDirectories :: ·)
      | _ :: _ => .error ⟨.partOfComponent, position + 2⟩
  | '*' :: cs => (readTokens false (position + 1) cs).map (.anySequence :: ·)
  | '[' :: '!' :: cs =>
    match readBracket cs with
    | none => .error ⟨.openBracket, position⟩
    | some (ranges, ⟨rest, _⟩) =>
      (readTokens false (position + 2 + (cs.length - rest.length)) rest).map (.except ranges :: ·)
  | '[' :: cs =>
    match readBracket cs with
    | none => .error ⟨.openBracket, position⟩
    | some (ranges, ⟨rest, _⟩) =>
      (readTokens false (position + 1 + (cs.length - rest.length)) rest).map (.within ranges :: ·)
  | c :: cs => (readTokens (c == '/') (position + 1) cs).map (.exactly c :: ·)
termination_by cs => cs.length
decreasing_by all_goals simp_all <;> omega

/-- Read a pattern. -/
def parse (text : String) : Except WildcardError Wildcard :=
  (readTokens true 0 text.toList).map (⟨text, ·⟩)

/-! ## matching names

A pattern is tried on all ends of a name at once, from the longest, which is the name, to the empty
one. What the tokens behind a token say about the ends is known when its own turn comes, so that no
end is tried twice for the same token.
-/

/-- What a token asks of one character. Those that stand for more ask nothing. -/
def allows : WildcardToken → Char → Bool
  | .exactly x, c => c == x
  | .within ranges, c => ranges.any (·.contains c)
  | .except ranges, c => !ranges.any (·.contains c)
  | .anyChar, _ | .anySequence, _ | .anyDirectories, _ => true

/-- The ends of a text that begin with an allowed character and go on as `later` asks. -/
def afterChar (allowed : Char → Bool) : List Char → (later : List Bool) → List Bool
  | c :: cs, _ :: b :: later => (allowed c && b) :: afterChar allowed cs (b :: later)
  | _, _ => [false]

/-- The ends from which an end that `later` asks for can be reached. -/
def afterAny : (later : List Bool) → List Bool
  | [] => []
  | b :: later =>
    match afterAny later with
    | [] => [b]
    | r :: rs => (b || r) :: r :: rs

/-- The ends from which an end that `later` asks for can be reached behind some slash. The empty end
can be reached from everywhere. -/
def afterSlash : List Char → (later : List Bool) → List Bool
  | c :: cs, _ :: b :: later =>
    match afterSlash cs (b :: later) with
    | [] => [c == '/' && b]
    | r :: rs => ((c == '/' && b) || r) :: r :: rs
  | _, later => later.take 1

/-- The ends from which an end that `later` asks for is left over by whole directories. -/
def afterDirectories (cs : List Char) (later : List Bool) : List Bool :=
  List.zipWith or later (afterSlash cs later)

/-- Which ends of a text fit tokens. -/
def fits : List WildcardToken → List Char → List Bool
  | [], cs => cs.map (fun _ => false) ++ [true]
  | .anySequence :: ts, cs => afterAny (fits ts cs)
  | .anyDirectories :: ts, cs => afterDirectories cs (fits ts cs)
  | t :: ts, cs => afterChar (allows t) cs (fits ts cs)

/-- Whether a name fits a pattern. -/
def accepts (w : Wildcard) (name : String) : Bool :=
  (fits w.tokens name.toList).headD false

end Wildcard

end Polyglot
