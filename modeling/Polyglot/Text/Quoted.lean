import Polyglot.Text.CodeRanges.Marks
import Polyglot.Text.CodeRanges.Unassigned
import Polyglot.Text.Raw

/-!
# Bytes shown in quotes

`showQuoted` puts bytes in double quotes for a message: what cannot be seen, or would be taken for
something else, is written with a backslash, and so is what is no text.
-/

namespace Polyglot

/-- Controls, invisible formats, separators other than the space, and private use. -/
def unseenRanges : CodeRanges :=
  [(0x0, 0x1F), (0x7F, 0xA0), (0xAD, 0xAD), (0x600, 0x605), (0x61C, 0x61C), (0x6DD, 0x6DD),
    (0x70F, 0x70F), (0x890, 0x891), (0x8E2, 0x8E2), (0x1680, 0x1680), (0x180E, 0x180E),
    (0x2000, 0x200F), (0x2028, 0x202F), (0x205F, 0x2064), (0x2066, 0x206F), (0x3000, 0x3000),
    (0xE000, 0xF8FF), (0xFEFF, 0xFEFF), (0xFFF9, 0xFFFB), (0x110BD, 0x110BD), (0x110CD, 0x110CD),
    (0x13430, 0x1343F), (0x1BCA0, 0x1BCA3), (0x1D173, 0x1D17A), (0xE0001, 0xE0001),
    (0xE0020, 0xE007F), (0xF0000, 0xFFFFD), (0x100000, 0x10FFFD)]

/-- A character that cannot be seen for itself. Marks are seen only on what is before them. -/
def isUnseen (c : Char) : Bool :=
  unseenRanges.has c || extendingRanges.has c || ignorableRanges.has c || unassignedRanges.has c

/-- A character by its code point. -/
def showCode (c : Char) : String :=
  "\\u\x7b" ++ String.ofList (Nat.toDigits 16 c.toNat) ++ "\x7d"

/-- A character in a quoted text. -/
def showChar (c : Char) : String :=
  if c = '\x00' then "\\0"
  else if c = '\t' then "\\t"
  else if c = '\r' then "\\r"
  else if c = '\n' then "\\n"
  else if c = '"' || c = '\\' then "\\" ++ c.toString
  else if isUnseen c then showCode c
  else c.toString

/-- A byte by its two digits. -/
def showByte (b : UInt8) : String :=
  "\\x" ++ String.ofList ([b.toNat / 16, b.toNat % 16].map (fun n => (Nat.digitChar n).toUpper))

def showGlyph : Glyph → String
  | .char c => showChar c
  | .stray bytes => String.join (bytes.map showByte)

/-- Bytes in double quotes. -/
def showQuoted (bs : RawText) : String :=
  "\"" ++ String.join (bs.glyphs.map showGlyph) ++ "\""

end Polyglot
