/-!
# Words at random

Generated code needs identifiers that nobody has chosen. They are made from words of eight
hexadecimal digits that a source of random words hands out. A word that was used before is passed
over.

* `Word`: a word, with `Word.digits`.
* `Supply`: what the source is going to hand out. It is finite; past its end the smallest unused
  word is taken.
* `Supply.draw`: a word that is not yet used.
-/

namespace Polyglot

/-- The number of words. -/
def wordCount : Nat := 0x100000000

/-- A word, by its value. -/
abbrev Word := Fin wordCount

namespace Word

/-- The word of a number; what does not fit is cut off. -/
def ofNat (n : Nat) : Word :=
  ⟨n % wordCount, Nat.mod_lt n (by decide)⟩

/-- A hexadecimal digit. -/
def digit (n : Nat) : Char :=
  if n < 10 then Char.ofNat ('0'.toNat + n) else Char.ofNat ('a'.toNat + (n - 10))

/-- The last `count` hexadecimal digits of a number, the highest first. -/
def digitsOf : (count : Nat) → Nat → List Char
  | 0, _ => []
  | count + 1, n => digitsOf count (n / 16) ++ [digit (n % 16)]

/-- The eight digits of a word. -/
def digits (w : Word) : List Char :=
  digitsOf 8 w.val

def text (w : Word) : String :=
  String.ofList w.digits

end Word

/-- The words that are going to be handed out. -/
structure Supply where
  outcomes : List Word := []

namespace Supply

/-- The smallest word that is not used. -/
def firstUnused (used : List Word) : Word :=
  (((List.range (used.length + 1)).map Word.ofNat).find? (fun w => !used.contains w)).getD
    (Word.ofNat 0)

/-- The next word that is not used, and what the source hands out after it. -/
def draw (s : Supply) (used : List Word) : Word × Supply :=
  match s.outcomes.dropWhile used.contains with
  | w :: rest => (w, ⟨rest⟩)
  | [] => (firstUnused used, ⟨[]⟩)

end Supply

end Polyglot
