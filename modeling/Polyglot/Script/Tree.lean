import Polyglot.Hint

/-!
# The tree of generated code

The part of TypeScript that generated modules use.

* `Expr`: expressions.
* `Statement`, `Declaration`, `Member`: statements, classes, interfaces and constants.
* `Program`: comments and statements.
-/

namespace Polyglot.Script

/-- A type annotation. -/
inductive TypeNode where
  | any
  | string
  | number
  | array (element : TypeNode)
  | named (name : String)
deriving DecidableEq, Repr

/-- The type that a hint stands for. -/
def TypeNode.ofHint : Hint → TypeNode
  | .unknown | .mixed => .any
  | .string => .string
  | .number => .number
  | .list => .array .any
  | .datetime => .named "Date"

/-- A parameter of a function or method. -/
structure Param where
  name : String
  type : Option TypeNode := none
deriving DecidableEq, Repr

inductive Expr where
  | identifier (name : String)
  /-- A string literal. -/
  | literal (value : String)
  | this
  | member (object : Expr) (property : String)
  | call (callee : Expr) (args : List Expr)
  /-- A template literal: texts, with an expression after each but the last. -/
  | template (quasis : List String) (exprs : List Expr)
  | arrow (params : List Param) (body : Expr)
  | assignment (left right : Expr)
  | object (properties : List (String × Expr))
  | array (items : List Expr)
  /-- The `new` expression. -/
  | construct (callee : String) (types : List TypeNode) (args : List Expr)
  /-- An `import(…)` that is loaded when it is evaluated. -/
  | load (source : String)
deriving Repr

/-- What an import brings in. -/
inductive ImportName where
  | named (name : String) (as? : Option String)
  | whole (name : String)
deriving DecidableEq, Repr

inductive MethodKind where
  | constructor
  | getter
  | method
deriving DecidableEq, Repr

/-- All of a method but its body. -/
structure MethodHead where
  key : String
  kind : MethodKind
  params : List Param
  returns : Option TypeNode
deriving DecidableEq, Repr

mutual

inductive Statement where
  | importFrom (names : List ImportName) (source : String)
  | expression (value : Expr)
  | returning (value : Option Expr)
  | exportDefault (value : Expr)
  | exportDefaultOf (declaration : Declaration)
  | exportNamed (declaration : Declaration)
  | declare (declaration : Declaration)

inductive Declaration where
  | ofClass (name : String) (implements : List String) (members : List Member)
  | ofInterface (name : String) (methods : List MethodHead)
  | constant (name : String) (value : Expr)

inductive Member where
  | property (key : String) (type : Option TypeNode)
  | method (head : MethodHead) (body : List Statement)

end

structure Program where
  comments : List String := []
  body : List Statement := []

namespace MethodKind

/-- A message without parameters becomes a getter. -/
def ofParams (params : List Param) : MethodKind :=
  if params.isEmpty then .getter else .method

end MethodKind

namespace MethodHead

/-- The head of the method that gives a message. -/
def ofMessage (key : String) (params : List Param) : MethodHead :=
  ⟨key, .ofParams params, params, some .string⟩

/-- The head of a constructor. -/
def ofConstructor (params : List Param) : MethodHead :=
  ⟨"constructor", .constructor, params, none⟩

end MethodHead

namespace Member

/-- The name by which a member is declared. -/
def key : Member → String
  | property key _ => key
  | method head _ => head.key

end Member

namespace Statement

/-- Import some names from a module. -/
def importNames (source : String) (names : List String) : Statement :=
  .importFrom (names.map (fun name => .named name none)) source

/-- Import what a module exports as its default. -/
def importDefault (source name : String) : Statement :=
  .importFrom [.whole name] source

end Statement

end Polyglot.Script
