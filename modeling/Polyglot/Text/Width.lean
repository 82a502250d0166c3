import Polyglot.Text.CodeRanges.Display
import Polyglot.Text.CodeRanges.Marks

/-!
# Display width

How many columns a text takes in a fixed-width font. A character alone takes two columns if it is
wide, none if it is a mark or invisible, and one otherwise. Characters that are drawn as one also
count as one: an emoji with its skin tone, emoji that are joined into one picture, and the ligatures
of some scripts. The end of such a whole tells what it can be, so that a text is measured from its
end to its beginning, and each character is told what the text after it begins with.

* `charWidth`: the columns of a character alone.
* `Opening`: what a text begins with, and `Following`, the same with selectors before it.
* `step`: the columns that a character adds to the text after it.
* `displayWidth`: the columns of a text.
-/

namespace Polyglot

/-- What asks for one of the forms of the character before it. -/
inductive FormSelector where
  | text
  | emoji
  | fullWidth
deriving DecidableEq, Repr

/-- The last part of a ligature, which the parts before it are to complete. -/
inductive LigatureEnd where
  /-- Arabic, after a lam. -/
  | alef
  /-- Hebrew, after an alef and a joiner. -/
  | lamed
  /-- Old Turkic, after another letter and a joiner. -/
  | orkhonI
  /-- Buginese, after a letter with a vowel sign and a joiner. -/
  | ya
  /-- The same with the vowel sign, before which only the letter lacks. -/
  | vowelYa
  /-- Tifinagh, after a consonant and a joiner. -/
  | consonant
  /-- The same with the joiner that the script has for this. -/
  | joinerConsonant
  /-- Lisu, after another tone letter. -/
  | tone
  /-- Khmer, after the sign that puts a letter below the line. -/
  | subscript
deriving DecidableEq, Repr

/-- What a text begins with, as far as it matters to the character before it. -/
inductive Opening where
  | other
  | lineFeed
  | skinTone
  /-- A single letter of a flag. -/
  | flagLetter
  /-- Two or more letters of flags. -/
  | flagLetters
  | emoji
  /-- A joiner and an emoji. -/
  | joinedEmoji
  /-- The sign of a keycap, a joiner and an emoji. -/
  | joinedKeycap
  /-- Letters of flags, a joiner and an emoji. The letters are one, or more and even or odd. -/
  | joinedLetter
  | joinedEvenLetters
  | joinedOddLetters
  /-- The end of the tags of a region, with so many letters and, before them, so many digits, a
  joiner and an emoji. -/
  | joinedTags (letters digits : Nat)
  /-- The Kirat Rai vowel signs that make others together. -/
  | vowelE
  | vowelAi
  /-- The end of a ligature, with a joiner before it or not. -/
  | ligature (last : LigatureEnd) (joined : Bool)
deriving DecidableEq, Repr

/-- What a text begins with, and the selectors before it. There can be several only before the end
of a ligature. -/
structure Following where
  opening : Opening := .other
  selectors : List FormSelector := []
deriving DecidableEq, Repr

/-! ## characters -/

def zeroWidthJoiner : Char := '\u200D'

/-- The sign that makes a keycap of a digit. -/
def keycapSign : Char := '\u20E3'

def isSkinTone (c : Char) : Bool :=
  0x1F3FB ≤ c.toNat && c.toNat ≤ 0x1F3FF

def isFlagLetter (c : Char) : Bool :=
  0x1F1E6 ≤ c.toNat && c.toNat ≤ 0x1F1FF

/-- The flag that tags can make the flag of a region of. -/
def isTagBase (c : Char) : Bool :=
  c.toNat == 0x1F3F4

def isTagLetter (c : Char) : Bool :=
  0xE0061 ≤ c.toNat && c.toNat ≤ 0xE007A

def isTagDigit (c : Char) : Bool :=
  0xE0030 ≤ c.toNat && c.toNat ≤ 0xE0039

def isTagEnd (c : Char) : Bool :=
  c.toNat == 0xE007F

/-- Quotation marks that are as wide as an East Asian character if that is asked for. -/
def isWideningQuote (c : Char) : Bool :=
  c == '\u2018' || c == '\u2019' || c == '\u201C' || c == '\u201D'

/-- Tifinagh consonants. -/
def isJoinableConsonant (c : Char) : Bool :=
  (0x2D31 ≤ c.toNat && c.toNat ≤ 0x2D65) || c.toNat == 0x2D6F

/-- Lisu tone letters that another one can follow. -/
def isFirstTone (c : Char) : Bool :=
  0xA4F8 ≤ c.toNat && c.toNat ≤ 0xA4FB

/-- Lisu tone letters that can follow another one. -/
def isSecondTone (c : Char) : Bool :=
  c.toNat == 0xA4FC || c.toNat == 0xA4FD

/-- Takes no column of its own. -/
def isWidthless (c : Char) : Bool :=
  extendingRanges.has c || ignorableRanges.has c || jamoRanges.has c || precedingRanges.has c

/-- Lets Arabic letters join across it. -/
def isPassing (c : Char) : Bool :=
  (extendingRanges.has c && !separatingRanges.has c) || passingRanges.has c

/-- The columns of a character that stands alone. -/
def charWidth (c : Char) : Nat :=
  if c.toNat ≤ 0xA0 then 1
  else if c == '\u2D7F' then 1
  else if c == '\u115F' || c == '\u17A4' then 2
  else if c == '\u17D8' then 3
  else if isWidthless c then 0
  else if wideRanges.has c then 2
  else 1

/-- The form that a selector asks for. -/
def FormSelector.ofChar? (c : Char) : Option FormSelector :=
  if c == '\uFE0E' then some .text
  else if c == '\uFE0F' then some .emoji
  else if c == '\uFE01' then some .fullWidth
  else none

/-! ## what follows -/

namespace Opening

/-- The end of a ligature. -/
def endOf (last : LigatureEnd) : Opening := ligature last false

/-- What a character is to the one before it. -/
def ofChar (c : Char) : Opening :=
  if c.toNat ≤ 0xA0 then (if c == '\n' then lineFeed else other)
  else if c == '\u05DC' then endOf .lamed
  else if alefRanges.has c then endOf .alef
  else if khmerSubscriptRanges.has c then endOf .subscript
  else if c == '\u1A10' then endOf .ya
  else if isJoinableConsonant c then endOf .consonant
  else if isSecondTone c then endOf .tone
  else if c.toNat == 0x10C03 then endOf .orkhonI
  else if c.toNat == 0x16D67 then vowelE
  else if c.toNat == 0x16D68 then vowelAi
  else if isFlagLetter c then flagLetter
  else if isSkinTone c then skinTone
  else if emojiRanges.has c then emoji
  else other

/-- Invisible marks and joiners do not part the ends of ligatures from what is before them. In
Arabic, which has marks of its own there, `joinLigature?` sees to that. -/
def bridge? (c : Char) : Opening → Option Opening
  | ligature .alef _ => none
  | ligature last joined =>
    if c == zeroWidthJoiner then some (ligature last true)
    else if bridgingRanges.has c then some (ligature last joined)
    else none
  | _ => none

/-- What is left of an opening when a selector comes before it. -/
def behind (s : FormSelector) : Opening → Opening
  | ligature last joined => ligature last joined
  | joinedEmoji => if s = .emoji then joinedEmoji else other
  | joinedKeycap => if s = .emoji then joinedKeycap else other
  | _ => other

/-- What is left of an opening when an emoji selector before it has been of no use. -/
def unselected : Opening → Opening
  | ligature last joined => ligature last joined
  | _ => other

/-- An emoji that comes next is joined to what follows it. -/
def isJoined : Opening → Bool
  | joinedEmoji | joinedKeycap => true
  | _ => false

/-- The columns that a character adds to the end of a ligature, if it is a part of it. -/
def joinLigature? (c : Char) (joined : Bool) : LigatureEnd → Option (Int × Opening)
  | .alef =>
    if lamRanges.has c then some (0, other)
    else if isPassing c then some (0, endOf .alef)
    else none
  | .lamed => if joined && c == '\u05D0' then some (0, other) else none
  | .orkhonI => if joined && c.toNat == 0x10C32 then some (0, other) else none
  | .ya => if joined && c == '\u1A17' then some (0, endOf .vowelYa) else none
  | .vowelYa => if c == '\u1A15' then some (0, other) else none
  | .consonant =>
    if c == '\u2D7F' then some (1, endOf .joinerConsonant)
    else if joined && isJoinableConsonant c then some (0, other)
    else none
  | .joinerConsonant => if isJoinableConsonant c then some (-1, other) else none
  | .tone => if isFirstTone c then some (0, other) else none
  | .subscript => if c == '\u17D2' then some (-1, other) else none

/-- The columns that a character adds to a joined emoji, if it is joined to it. -/
def joinEmoji? (c : Char) : Option (Int × Opening) :=
  if c == keycapSign then some (0, joinedKeycap)
  else if isFlagLetter c then some (1, joinedLetter)
  else if isSkinTone c then some (0, skinTone)
  else if isTagEnd c then some (0, joinedTags 0 0)
  else if emojiRanges.has c then some (0, emoji)
  else none

/-- The columns that a character adds to the tags of a region that is joined to an emoji. A region
has three to six letters, or three digits and up to four letters. -/
def joinTags? (c : Char) (letters digits : Nat) : Option (Int × Opening) :=
  if isTagLetter c && digits == 0 && letters < 6 then some (0, joinedTags (letters + 1) 0)
  else if isTagDigit c && letters ≤ 4 && digits < 3 then some (0, joinedTags letters (digits + 1))
  else if isTagBase c && (digits == 3 || (digits == 0 && 3 ≤ letters)) then some (0, emoji)
  else none

/-- The columns that a character adds to what follows it, if it is drawn as one with it. Letters of
flags make pairs from the first on, so that the last one of an odd number stands alone. -/
def join? (c : Char) : Opening → Option (Int × Opening)
  | other | lineFeed => none
  | emoji => if c == zeroWidthJoiner then some (0, joinedEmoji) else none
  | skinTone =>
    if skinRanges.has c then some (0, emoji)
    else if c == zeroWidthJoiner then some (0, joinedEmoji)
    else none
  | flagLetter => if isFlagLetter c then some (1, flagLetters) else none
  | flagLetters =>
    if isFlagLetter c then some (1, flagLetters)
    else if c == zeroWidthJoiner then some (0, joinedEmoji)
    else none
  | joinedEmoji => joinEmoji? c
  | joinedKeycap => none
  | joinedLetter => if isFlagLetter c then some (-1, joinedEvenLetters) else none
  | joinedEvenLetters =>
    if isFlagLetter c then some (3, joinedOddLetters)
    else if c == zeroWidthJoiner then some (0, joinedEmoji)
    else none
  | joinedOddLetters =>
    if isFlagLetter c then some (-1, joinedEvenLetters)
    else if c == zeroWidthJoiner then some (0, joinedEmoji)
    else none
  | joinedTags letters digits => joinTags? c letters digits
  | vowelE =>
    if c.toNat == 0x16D63 || c.toNat == 0x16D69 then some (0, other)
    else if c.toNat == 0x16D67 then some (0, vowelAi)
    else if c.toNat == 0x16D68 then some (1, vowelE)
    else none
  | vowelAi => if c.toNat == 0x16D63 then some (0, other) else none
  | ligature last joined => joinLigature? c joined last

end Opening

namespace Following

def has (f : Following) (s : FormSelector) : Bool := f.selectors.contains s

/-- A selector comes before the text. The end of a ligature keeps those that it already has. -/
def select (s : FormSelector) (f : Following) : Following :=
  match f.opening with
  | .ligature .. => { f with selectors := f.selectors.insert s }
  | o => { opening := o.behind s, selectors := [s] }

/-- The character before an emoji selector has no form as emoji. -/
def withoutEmoji (f : Following) : Following :=
  if f.has .emoji then
    { opening := f.opening.unselected, selectors := f.selectors.erase .emoji }
  else f

end Following

/-! ## texts -/

/-- The columns that a character adds to a text without selectors at its front. -/
def stepPlain (c : Char) (o : Opening) : Int × Following :=
  match o.bridge? c with
  | some o => (0, { opening := o })
  | none =>
    match o.join? c with
    | some (width, o) => (width, { opening := o })
    | none => (charWidth c, { opening := .ofChar c })

/-- The columns that a character adds to a text that does not ask for its form as emoji. -/
def stepUnstyled (c : Char) (f : Following) : Int × Following :=
  if c.toNat ≤ 0xA0 then
    (if c == '\r' && f.opening == .lineFeed then 0 else 1, { opening := .ofChar c })
  else
    match FormSelector.ofChar? c with
    | some s => (0, f.select s)
    | none =>
      if f.has .text && narrowingRanges.has c then (1, {})
      else if f.has .fullWidth && isWideningQuote c then (2, {})
      else stepPlain c f.opening

/-- The columns that a character adds to the text after it, and what the text begins with then. -/
def step (c : Char) (f : Following) : Int × Following :=
  if f.has .emoji && styledRanges.has c then
    (if f.opening.isJoined then 0 else 2, { opening := .emoji })
  else stepUnstyled c f.withoutEmoji

/-- The columns of characters in a row, and what they begin with. -/
def columns (cs : List Char) : Int × Following :=
  cs.foldr (fun c (width, f) => (width + (step c f).1, (step c f).2)) (0, {})

/-- The columns that a text takes. -/
def displayWidth (text : String) : Nat :=
  (columns text.toList).1.toNat

end Polyglot
