import Polyglot.Generate.Supply

/-!
# Putting code into printed text

Message files bring code of their own, and nobody looks into it. In the tree each piece of code is
held by a placeholder, which is an identifier made from a random word; in the printed text every
placeholder gives way to its code.

* `Insertion`: the codes and the words that stand for them.
* `Insertion.add`: a placeholder for some code.
* `Insertion.process`: a text with its placeholders replaced.
-/

namespace Polyglot

/-- The codes to insert, by the words of their placeholders. -/
structure Insertion where
  codes : List (Word × String) := []

/-- What every placeholder begins with. -/
def placeholderMark : List Char := "__usr_".toList

/-- The number of digits after the mark. -/
def placeholderDigits : Nat := 8

def isLowerHex (c : Char) : Bool :=
  c.isDigit || ('a' ≤ c && c ≤ 'f')

/-- The placeholder of a word. -/
def Word.placeholder (w : Word) : List Char :=
  placeholderMark ++ w.digits

/-- The text at the beginning of `cs` that has the form of a placeholder. -/
def placeholderAt (cs : List Char) : Option (List Char) :=
  if placeholderMark.isPrefixOf cs then
    let digits := (cs.drop placeholderMark.length).take placeholderDigits
    if digits.length == placeholderDigits && digits.all isLowerHex then
      some (placeholderMark ++ digits)
    else none
  else none

namespace Insertion

def used (i : Insertion) : List Word :=
  i.codes.map (·.1)

/-- Note some code, and get the word that stands for it. -/
def add (i : Insertion) (supply : Supply) (code : String) : Word × Insertion × Supply :=
  let (w, supply) := supply.draw i.used
  (w, ⟨i.codes ++ [(w, code)]⟩, supply)

/-- The placeholders, each with its code. -/
def table (i : Insertion) : List (List Char × List Char) :=
  i.codes.map (fun e => (e.1.placeholder, e.2.toList))

/-- Replace placeholders from the left; the first `skip` characters belong to the last one found.
A text of that form that stands for nothing stays. -/
def processFrom (table : List (List Char × List Char)) : (skip : Nat) → List Char → List Char
  | _, [] => []
  | skip + 1, _ :: cs => processFrom table skip cs
  | 0, c :: cs =>
    match placeholderAt (c :: cs) with
    | some found => (table.lookup found).getD found ++ processFrom table (found.length - 1) cs
    | none => c :: processFrom table 0 cs

/-- The text with every known placeholder replaced by its code. -/
def process (i : Insertion) (text : String) : String :=
  String.ofList (processFrom i.table 0 text.toList)

end Insertion

/-- The words already used in cache keys. -/
abbrev CacheKeys := List Word

/-- A cache key that was not handed out before. -/
def CacheKeys.generate (keys : CacheKeys) (supply : Supply) (mark : String) :
    String × CacheKeys × Supply :=
  let (w, supply) := supply.draw keys
  (mark ++ w.text, w :: keys, supply)

end Polyglot
