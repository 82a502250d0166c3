/-!
# Raw text

Names and paths are bytes. They are meant to be text, but the system does not see to it that they are.
Bytes fall into characters and stray stretches, which are part of no character; a stray stretch is as
much of a character as there is, or else a single byte. Where bytes are shown, every stray stretch is
shown as the same character, so that different bytes can be shown alike.

* `RawText.ofText`: the bytes of a text.
* `RawText.glyphs`: what bytes fall into.
* `RawText.shown`: bytes as they are shown.
* `RawText.text?`: the text that bytes are, if they are one.
-/

namespace Polyglot

/-- Bytes that are meant to be text. -/
abbrev RawText := List UInt8

/-- A character, or bytes that are part of none. -/
inductive Glyph where
  | char (c : Char)
  | stray (bytes : List UInt8)
deriving DecidableEq, Repr

namespace Glyph

def bytes : Glyph → RawText
  | char c => String.utf8EncodeChar c
  | stray bytes => bytes

/-- What stands for stray bytes. -/
def replacement : Char := '\uFFFD'

def shown : Glyph → Char
  | char c => c
  | stray _ => replacement

def isChar : Glyph → Bool
  | char _ => true
  | stray _ => false

end Glyph

namespace RawText

def ofChars (cs : List Char) : RawText :=
  cs.flatMap String.utf8EncodeChar

/-- The bytes of a text. -/
def ofText (s : String) : RawText :=
  ofChars s.toList

/-- The character that bytes begin with. -/
def firstChar? (bs : RawText) : Option Char :=
  (bs.take 4).toByteArray.utf8DecodeChar? 0

/-- A byte that can only go on with a character. -/
def isContinuation (b : UInt8) : Bool :=
  0x80 ≤ b && b ≤ 0xBF

/-- Whether some character of at least three bytes begins with these two. -/
def opens (first second : UInt8) : Bool :=
  if first = 0xE0 then 0xA0 ≤ second && second ≤ 0xBF
  else if first = 0xED then 0x80 ≤ second && second ≤ 0x9F
  else if first = 0xF0 then 0x90 ≤ second && second ≤ 0xBF
  else if first = 0xF4 then 0x80 ≤ second && second ≤ 0x8F
  else 0xE0 ≤ first && first ≤ 0xF4 && isContinuation second

/-- How many bytes are astray, if no character begins here. -/
def strayLength : RawText → Nat
  | first :: second :: rest =>
    if !opens first second then 1
    else if 0xF0 ≤ first && rest.head?.any isContinuation then 3
    else 2
  | _ => 1

/-- What bytes fall into, after the first `skip` of them. -/
def glyphsFrom : (skip : Nat) → RawText → List Glyph
  | _, [] => []
  | skip + 1, _ :: bs => glyphsFrom skip bs
  | 0, b :: bs =>
    match firstChar? (b :: bs) with
    | some c => .char c :: glyphsFrom (c.utf8Size - 1) bs
    | none =>
      .stray ((b :: bs).take (strayLength (b :: bs))) :: glyphsFrom (strayLength (b :: bs) - 1) bs

/-- What bytes fall into. -/
def glyphs (bs : RawText) : List Glyph :=
  glyphsFrom 0 bs

/-- Bytes as they are shown. -/
def shown (bs : RawText) : String :=
  String.ofList (bs.glyphs.map Glyph.shown)

/-- The text that bytes are. -/
def text? (bs : RawText) : Option String :=
  if bs.glyphs.all Glyph.isChar then some bs.shown else none

end RawText

end Polyglot
