import Polyglot.KeyMap

/-!
# JSON

JSON values as they are written: numbers and strings keep their spelling. So a value can be read
although one of its strings has no meaning, which happens when an escape names half of a surrogate
pair, and such a string does no harm as long as nobody asks for its text.

* `Json.parse?`: reads one value and nothing else.
* `Json.text?`, `Json.ofText`: what a string means, and how a text is written.
* `Json.record?`: the fields of an object, or of the array that lists their values in order.
* `Json.pretty`: the value over several lines.
-/

namespace Polyglot

/-- A JSON value. Strings and field names are spelled as between their quotes. -/
inductive Json where
  | null
  | bool (value : Bool)
  | number (spelling : String)
  | string (spelling : String)
  | array (items : List Json)
  | object (fields : List (String × Json))

namespace Json

/-! ## the spelling of strings -/

/-- The value of a hexadecimal digit of either case. -/
def hexValue? (c : Char) : Option Nat :=
  if c.isDigit then some (c.toNat - '0'.toNat)
  else if 'a' ≤ c && c ≤ 'f' then some (c.toNat - 'a'.toNat + 10)
  else if 'A' ≤ c && c ≤ 'F' then some (c.toNat - 'A'.toNat + 10)
  else none

/-- The value of four hexadecimal digits. -/
def hexUnit? (a b c d : Char) : Option Nat := do
  return (((← hexValue? a) * 16 + (← hexValue? b)) * 16 + (← hexValue? c)) * 16 + (← hexValue? d)

/-- The escapes of one letter, with what they mean. -/
def escapes : List (Char × Char) :=
  [('"', '"'), ('\\', '\\'), ('/', '/'), ('b', '\x08'), ('f', '\x0C'), ('n', '\n'), ('r', '\r'),
    ('t', '\t')]

/-- The spelling of a string whose opening quote is gone, and what follows the closing one. Every
escape has to be one, and no control character may stand for itself. -/
def readSpelling : List Char → Option (List Char × List Char)
  | [] => none
  | '"' :: cs => some ([], cs)
  | '\\' :: 'u' :: a :: b :: c :: d :: cs =>
    if (hexUnit? a b c d).isSome then
      (readSpelling cs).map (fun (s, rest) => ('\\' :: 'u' :: a :: b :: c :: d :: s, rest))
    else none
  | '\\' :: e :: cs =>
    if (escapes.lookup e).isSome then
      (readSpelling cs).map (fun (s, rest) => ('\\' :: e :: s, rest))
    else none
  | c :: cs =>
    if c < ' ' || c = '\\' then none
    else (readSpelling cs).map (fun (s, rest) => (c :: s, rest))

/-- The text that is spelled. Two escapes may name the halves of one character; half a character
alone means nothing. -/
def decodeSpelling : List Char → Option (List Char)
  | [] => some []
  | '\\' :: 'u' :: a :: b :: c :: d :: cs =>
    match hexUnit? a b c d with
    | none => none
    | some unit =>
      if 0xDC00 ≤ unit && unit ≤ 0xDFFF then none
      else if 0xD800 ≤ unit && unit ≤ 0xDBFF then
        match cs with
        | '\\' :: 'u' :: e :: f :: g :: h :: cs =>
          match hexUnit? e f g h with
          | none => none
          | some low =>
            if 0xDC00 ≤ low && low ≤ 0xDFFF then
              (decodeSpelling cs).map
                (Char.ofNat (0x10000 + (unit - 0xD800) * 0x400 + (low - 0xDC00)) :: ·)
            else none
        | _ => none
      else (decodeSpelling cs).map (Char.ofNat unit :: ·)
  | '\\' :: e :: cs =>
    match escapes.lookup e with
    | none => none
    | some c => (decodeSpelling cs).map (c :: ·)
  | c :: cs => (decodeSpelling cs).map (c :: ·)

/-- How a character is written between quotes. -/
def spellChar (c : Char) : List Char :=
  if c = '"' || c = '\\' then ['\\', c]
  else if c < ' ' then
    match escapes.find? (fun e => e.2 == c) with
    | some e => ['\\', e.1]
    | none =>
      ['\\', 'u', '0', '0', Nat.digitChar (c.toNat / 16), Nat.digitChar (c.toNat % 16)]
  else [c]

/-- The string that means a text. -/
def ofText (text : String) : Json :=
  .string (String.ofList (text.toList.flatMap spellChar))

/-- The text that a spelling means. -/
def meaning? (spelling : String) : Option String :=
  (decodeSpelling spelling.toList).map String.ofList

/-! ## reading -/

def isBlank (c : Char) : Bool :=
  c = ' ' || c = '\n' || c = '\r' || c = '\t'

/-- What follows the blanks at the front. -/
def skipBlanks (cs : List Char) : List Char :=
  cs.dropWhile isBlank

/-- The digits at the front, of which there has to be one. -/
def readDigits (cs : List Char) : Option (List Char × List Char) :=
  match cs.takeWhile Char.isDigit with
  | [] => none
  | digits => some (digits, cs.dropWhile Char.isDigit)

/-- A whole number: a zero, or digits that begin with another one. -/
def readWhole : List Char → Option (List Char × List Char)
  | '0' :: cs => if cs.head?.any Char.isDigit then none else some (['0'], cs)
  | cs => readDigits cs

/-- What may follow the whole part of a number: a point and digits. -/
def readFraction : List Char → Option (List Char × List Char)
  | '.' :: cs => (readDigits cs).map (fun (digits, rest) => ('.' :: digits, rest))
  | cs => some ([], cs)

/-- What may end a number: a mark, perhaps a sign, and digits. -/
def readExponent : List Char → Option (List Char × List Char)
  | c :: cs =>
    if c = 'e' || c = 'E' then
      match cs with
      | s :: ds =>
        if s = '+' || s = '-' then
          (readDigits ds).map (fun (digits, rest) => (c :: s :: digits, rest))
        else (readDigits cs).map (fun (digits, rest) => (c :: digits, rest))
      | [] => none
    else some ([], c :: cs)
  | [] => some ([], [])

/-- A number. -/
def readNumber (cs : List Char) : Option (Json × List Char) := do
  let (sign, cs) := match cs with
    | '-' :: cs => (['-'], cs)
    | cs => ([], cs)
  let (whole, cs) ← readWhole cs
  let (fraction, cs) ← readFraction cs
  let (exponent, cs) ← readExponent cs
  return (.number (String.ofList (sign ++ whole ++ fraction ++ exponent)), cs)

mutual

/-- Read a value that is nested no deeper than `depth` allows. -/
def readValue : (depth : Nat) → List Char → Option (Json × List Char)
  | 0, _ => none
  | depth + 1, cs =>
    match skipBlanks cs with
    | 'n' :: 'u' :: 'l' :: 'l' :: cs => some (.null, cs)
    | 't' :: 'r' :: 'u' :: 'e' :: cs => some (.bool true, cs)
    | 'f' :: 'a' :: 'l' :: 's' :: 'e' :: cs => some (.bool false, cs)
    | '"' :: cs => (readSpelling cs).map (fun (s, rest) => (.string (String.ofList s), rest))
    | '[' :: cs =>
      match skipBlanks cs with
      | ']' :: cs => some (.array [], cs)
      | cs => (readItems depth cs).map (fun (items, rest) => (.array items, rest))
    | '\x7b' :: cs =>
      match skipBlanks cs with
      | '\x7d' :: cs => some (.object [], cs)
      | cs => (readFields depth cs).map (fun (fields, rest) => (.object fields, rest))
    | cs => readNumber cs

/-- Read the items of an array, of which there is one, up to its closing bracket. -/
def readItems : (depth : Nat) → List Char → Option (List Json × List Char)
  | 0, _ => none
  | depth + 1, cs =>
    match readValue depth cs with
    | none => none
    | some (item, cs) =>
      match skipBlanks cs with
      | ']' :: cs => some ([item], cs)
      | ',' :: cs => (readItems depth cs).map (fun (items, rest) => (item :: items, rest))
      | _ => none

/-- Read the fields of an object, of which there is one, up to its closing brace. -/
def readFields : (depth : Nat) → List Char → Option (List (String × Json) × List Char)
  | 0, _ => none
  | depth + 1, cs =>
    match skipBlanks cs with
    | '"' :: cs =>
      match readSpelling cs with
      | none => none
      | some (name, cs) =>
        match skipBlanks cs with
        | ':' :: cs =>
          match readValue depth cs with
          | none => none
          | some (value, cs) =>
            let field := (String.ofList name, value)
            match skipBlanks cs with
            | '\x7d' :: cs => some ([field], cs)
            | ',' :: cs => (readFields depth cs).map (fun (fields, rest) => (field :: fields, rest))
            | _ => none
        | _ => none
    | _ => none

end

/-- Read a text that holds one value and, around it, nothing but blanks. Two steps down for every
character are more than any text can ask for. -/
def parse? (text : String) : Option Json :=
  match readValue (2 * text.length + 2) text.toList with
  | some (value, rest) => if skipBlanks rest = [] then some value else none
  | none => none

/-! ## taking values apart -/

def text? : Json → Option String
  | string spelling => meaning? spelling
  | _ => none

/-- A text, or null for none. -/
def optionalText? : Json → Option (Option String)
  | null => some none
  | string spelling => (meaning? spelling).map some
  | _ => none

def bool? : Json → Option Bool
  | bool value => some value
  | _ => none

def texts? : Json → Option (List String)
  | array items => items.mapM text?
  | _ => none

/-- The fields with these names. An object may have others, which are left aside, but none of
these twice; an array lists the values of the first of them in order. -/
def record? (names : List String) : Json → Option (KeyMap Json)
  | array items =>
    if items.length ≤ names.length then some (KeyMap.ofList (names.zip items)) else none
  | object fields => do
    let fields ← fields.mapM (fun f => (meaning? f.1).map (·, f.2))
    let known := fields.filter (fun f => names.contains f.1)
    let record := KeyMap.ofList known
    if record.size = known.length then some record else none
  | _ => none

/-- What the field of a record says; if it is missing, it says `absent`. -/
def readField {α : Type} (record : KeyMap Json) (name : String) (read : Json → Option α)
    (absent : α) : Option α :=
  match record.find? name with
  | some value => read value
  | none => some absent

/-! ## writing -/

/-- A text, or null for none. -/
def ofOptionalText : Option String → Json
  | some text => ofText text
  | none => null

def indent (lines : List String) : List String :=
  lines.map ("  " ++ ·)

/-- Lines with a comma at their end. -/
def separate : List String → List String
  | [] => []
  | [line] => [line ++ ","]
  | line :: lines => line :: separate lines

/-- The lines of a value behind the name of its field. -/
def label (name : String) : List String → List String
  | [] => []
  | line :: lines => ("\"" ++ name ++ "\": " ++ line) :: lines

mutual

/-- The lines of a value, indented by two blanks a level. -/
def lines : Json → List String
  | null => ["null"]
  | bool value => [if value then "true" else "false"]
  | number spelling => [spelling]
  | string spelling => ["\"" ++ spelling ++ "\""]
  | array [] => ["[]"]
  | array items => "[" :: itemLines items ++ ["]"]
  | object [] => ["\x7b\x7d"]
  | object fields => "\x7b" :: fieldLines fields ++ ["\x7d"]

/-- The lines of items, with commas between them. -/
def itemLines : List Json → List String
  | [] => []
  | [item] => indent item.lines
  | item :: items => indent (separate item.lines) ++ itemLines items

/-- The lines of fields, with commas between them. -/
def fieldLines : List (String × Json) → List String
  | [] => []
  | [(name, value)] => indent (label name value.lines)
  | (name, value) :: fields => indent (separate (label name value.lines)) ++ fieldLines fields

end

/-- The value over several lines. -/
def pretty (value : Json) : String :=
  "\n".intercalate value.lines

end Json

end Polyglot
