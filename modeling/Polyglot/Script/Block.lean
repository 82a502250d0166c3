import Polyglot.Text.Width

/-!
# Blocks of lines

Printing puts code together from blocks, which are lists of lines. Blocks are indented, stacked and
glued; only the finished block becomes text.

* `Block.glue`: one block goes on where the last line of another ends.
* `Block.stack`: blocks one below the other.
* `Block.braced`: a block between braces.
* `Block.list`: items between brackets, on one line or one below the other.
-/

namespace Polyglot.Script

/-- Lines of code, from top to bottom. -/
structure Block where
  lines : List String := []
deriving DecidableEq, Repr

/-- Two stretches of lines, the first line of the second going on from the last of the first. -/
def glueLines : List String → List String → List String
  | [], ys => ys
  | xs, [] => xs
  | [x], y :: ys => (x ++ y) :: ys
  | x :: xs, ys => x :: glueLines xs ys

namespace Block

/-- A block of one line. -/
def line (text : String) : Block := ⟨[text]⟩

def empty : Block := {}

def text (b : Block) : String :=
  "\n".intercalate b.lines

def isMultiline (b : Block) : Bool :=
  1 < b.lines.length

/-- The width of the first line. -/
def width (measure : String → Nat) (b : Block) : Nat :=
  (b.lines.head?.map measure).getD 0

/-- One block below the other. -/
def above (a b : Block) : Block :=
  ⟨a.lines ++ b.lines⟩

/-- Blocks one below the other. -/
def stack (bs : List Block) : Block :=
  ⟨bs.flatMap Block.lines⟩

/-- `b` goes on where `a` ends. -/
def glue (a b : Block) : Block :=
  ⟨glueLines a.lines b.lines⟩

/-- Each block goes on where the one before it ends. -/
def glueAll (bs : List Block) : Block :=
  bs.foldl glue empty

/-- `code` goes before the first line of the block. -/
def lead (b code : Block) : Block :=
  code.glue b

/-- Text goes on where the block ends. -/
def push (b : Block) (text : String) : Block :=
  b.glue (line text)

/-- A line one step further to the right. An empty line stays empty. -/
def indentLine (line : String) : String :=
  if line.isEmpty then line else "  " ++ line

def indent (b : Block) : Block :=
  ⟨b.lines.map indentLine⟩

/-- A block between braces that stand on lines of their own. -/
def braced (b : Block) : Block :=
  if b.lines.isEmpty then line "\x7b \x7d"
  else ((line "\x7b").above b.indent).above (line "\x7d")

/-- Lists whose items are no wider than this in all stay on one line. -/
def maxInlineWidth : Nat := 60

/-- Whether the items of a list are short enough for one line. -/
def fitsInline (measure : String → Nat) (items : List Block) : Bool :=
  !items.any isMultiline && items.foldr (fun item n => width measure item + n) 0 ≤ maxInlineWidth

/-- Items with a comma between each and the next. -/
def commaSeparated : List Block → Block
  | [] => empty
  | [item] => item
  | item :: items => (item.push ", ").glue (commaSeparated items)

/-- A list on one line. Braces stand off from what is inside them, other brackets do not. -/
def inlineList (opening closing : String) (items : List Block) : Block :=
  let padding := if opening = "\x7b" then " " else ""
  ((line (opening ++ padding)).glue (commaSeparated items)).push (padding ++ closing)

/-- A list with one item below the other, each with a comma after it. -/
def brokenList (opening closing : String) (items : List Block) : Block :=
  ((line opening).above (stack (items.map (fun item => item.push ","))).indent).above (line closing)

/-- A bracketed list. It is broken over lines if `breaks` allows it and the items do not fit. -/
def list (measure : String → Nat) (breaks : Bool) (opening closing : String)
    (items : List Block) : Block :=
  if items.isEmpty then line (opening ++ closing)
  else if !breaks || fitsInline measure items then inlineList opening closing items
  else brokenList opening closing items

end Block

end Polyglot.Script
