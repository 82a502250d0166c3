import Polyglot.Script.Block
import Polyglot.Script.Literal
import Polyglot.Script.Tree
import Polyglot.Text.Identifier

/-!
# Printing code

The text of a tree. Lists that are too wide are broken over lines, except inside template
literals, which stay on one line: a printer carries the switch that says so.

* `Printer`: the switch, and the measure of width.
* `Printer.expression`, `Printer.statement`, `Printer.declaration`, `Printer.program`.
* `printComment`, `Program.text`.
-/

namespace Polyglot.Script

/-- What printing depends on. -/
structure Printer where
  /-- Whether lists may be broken over lines. -/
  breaks : Bool := true
  /-- The width of a line. -/
  measure : String → Nat := displayWidth

abbrev Print := StateM Printer

/-! ## names and types -/

/-- A key in an object, class or interface: quoted unless it is an identifier. -/
def propertyKey (key : String) : String :=
  if isIdentifier key then key else quoteString key

def typeText : TypeNode → String
  | .any => "any"
  | .string => "string"
  | .number => "number"
  | .array element => typeText element ++ "[]"
  | .named name => name

def typeAnnotation : Option TypeNode → String
  | some type => ": " ++ typeText type
  | none => ""

def paramsText (params : List Param) : String :=
  ", ".intercalate (params.map (fun p => p.name ++ typeAnnotation p.type))

/-- The head of a method: its kind, key, parameters and result. -/
def headText (head : MethodHead) : String :=
  (if head.kind = .getter then "get " else "") ++ propertyKey head.key ++
    "(" ++ paramsText head.params ++ ")" ++ typeAnnotation head.returns

def importNameText : ImportName → String
  | .named name none => name
  | .named name (some local?) => if local? = name then name else name ++ " as " ++ local?
  | .whole name => "default as " ++ name

def importText (names : List ImportName) (source : String) : String :=
  let what := match names with
    | [.whole name] => name
    | names => "\x7b " ++ ", ".intercalate (names.map importNameText) ++ " \x7d"
  "import " ++ what ++ " from " ++ quoteString source ++ ";"

/-- A block comment. Lines after the first stand behind a star. -/
def printComment (text : String) : Block :=
  match (text.toList.splitOn '\n').map String.ofList with
  | [] => .line "/*  */"
  | [only] => .line ("/* " ++ only ++ " */")
  | first :: rest => ⟨("/* " ++ first) :: rest.map (" * " ++ ·) ++ [" */"]⟩

/-- The arguments of a call, which are never broken over lines between them. -/
def argumentList (args : List Block) : Block :=
  ((Block.line "(").glue (.commaSeparated args)).push ")"

namespace Printer

/-- A bracketed list, laid out as the switch allows. -/
def list (opening closing : String) (items : List Block) : Print Block := do
  let printer ← get
  return .list printer.measure printer.breaks opening closing items

/-- Print with lists kept on one line, and put the switch back. -/
def unbroken (print : Print Block) : Print Block := do
  let before ← get
  set { before with breaks := false }
  let block ← print
  modify (fun printer => { printer with breaks := before.breaks })
  return block

/-! ## expressions -/

mutual

def expression : Expr → Print Block
  | .identifier name => return .line name
  | .literal value => return .line (quoteString value)
  | .this => return .line "this"
  | .member object property => return (← expression object).push ("." ++ property)
  | .call callee args => do
    let callee ← expression callee
    return callee.glue (argumentList (← expressions args))
  | .template quasis exprs => do
    let body ← unbroken (templateBody quasis exprs)
    return ((Block.line "`").glue body).push "`"
  | .arrow params body =>
    return (Block.line ("(" ++ paramsText params ++ ") => ")).glue (← expression body)
  | .assignment left right => do
    let left ← expression left
    return (left.push " = ").glue (← expression right)
  | .object props => do
    list "\x7b" "\x7d" (← properties props)
  | .array items => do
    list "[" "]" (← expressions items)
  | .construct callee types args => do
    let types := if types.isEmpty then "" else "<" ++ ", ".intercalate (types.map typeText) ++ ">"
    return (Block.line ("new " ++ callee ++ types)).glue (argumentList (← expressions args))
  | .load source => return .line ("import(" ++ quoteString source ++ ")")

def expressions : List Expr → Print (List Block)
  | [] => return []
  | e :: es => do
    let e ← expression e
    return e :: (← expressions es)

def properties : List (String × Expr) → Print (List Block)
  | [] => return []
  | (key, e) :: props => do
    let e ← expression e
    return (Block.line (propertyKey key ++ ": ")).glue e :: (← properties props)

/-- The inside of a template literal. Texts that are left over come at the end. -/
def templateBody : List String → List Expr → Print Block
  | quasis, [] => return .line (String.join (quasis.map escapeTemplate))
  | quasis, e :: es => do
    let quasi := (quasis.head?.map escapeTemplate).getD ""
    let e ← expression e
    let rest ← templateBody quasis.tail es
    return ((((Block.line (quasi ++ "$\x7b")).glue e).push "\x7d").glue rest)

end

/-! ## statements -/

mutual

def statement : Statement → Print Block
  | .importFrom names source => return .line (importText names source)
  | .expression value => return (← expression value).push ";"
  | .returning none => return .line "return;"
  | .returning (some value) => return ((Block.line "return ").glue (← expression value)).push ";"
  | .exportDefault value =>
    return ((Block.line "export default ").glue (← expression value)).push ";"
  | .exportDefaultOf d => return (← declaration d).lead (.line "export default ")
  | .exportNamed d => return (← declaration d).lead (.line "export ")
  | .declare d => declaration d

def declaration : Declaration → Print Block
  | .ofClass name implements body => do
    let implements :=
      if implements.isEmpty then "" else "implements " ++ ", ".intercalate implements ++ " "
    let body ← members body
    return (Block.line ("class " ++ name ++ " " ++ implements)).glue (Block.stack body).braced
  | .ofInterface name methods =>
    return (Block.line ("interface " ++ name ++ " ")).glue
      (Block.stack (methods.map (fun head => .line (headText head ++ ";")))).braced
  | .constant name value =>
    return ((Block.line ("const " ++ name ++ " = ")).glue (← expression value)).push ";"

def members : List Member → Print (List Block)
  | [] => return []
  | m :: ms => do
    let m ← member m
    return m :: (← members ms)

def member : Member → Print Block
  | .property key type => return .line ("private " ++ propertyKey key ++ typeAnnotation type ++ ";")
  | .method head body =>
    return (Block.line ("public " ++ headText head ++ " ")).glue
      (Block.stack (← statements body)).braced

def statements : List Statement → Print (List Block)
  | [] => return []
  | s :: ss => do
    let s ← statement s
    return s :: (← statements ss)

end

/-- A whole program, with a line feed at its end. -/
def program (p : Program) : Print Block := do
  return .stack (p.comments.map printComment ++ (← statements p.body) ++ [.line ""])

end Printer

/-- The text of a program. -/
def Program.text (p : Program) : String :=
  ((Printer.program p).run {}).1.text

end Polyglot.Script
