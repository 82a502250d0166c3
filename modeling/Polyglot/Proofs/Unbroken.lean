import Polyglot.Proofs.StringLiteral
import Polyglot.Proofs.TemplateMeaning

/-!
# Printing leaves the printer as it is, and template literals on one line

The switch for line breaks is turned off inside a template literal and put back at its end. Whatever
is printed, the printer is the same afterwards; and while the switch is off, an expression takes one
line, which depends on nothing else.

* `Expr.induction`, `Expr.Within`: the parts of an expression;
* `Keeps`: printing that leaves the printer as it is;
* `Expr.block`: what is printed for an expression, with an equation for each form;
* `Expr.inline`, `block_inline`: an expression on one line;
* `Composable`: properties of texts that go over from names and literals to expressions;
* `template_one_line`: the main statement.
-/

namespace Polyglot.Script

/-! ### Parts of an expression -/

namespace Expr

/-- Induction over expressions, with the property for all parts of an expression. -/
@[elab_as_elim]
theorem induction {motive : Expr → Prop}
    (identifier : ∀ name, motive (.identifier name))
    (literal : ∀ value, motive (.literal value))
    (this : motive .this)
    (member : ∀ object property, motive object → motive (.member object property))
    (call : ∀ callee args, motive callee → (∀ e ∈ args, motive e) → motive (.call callee args))
    (template : ∀ quasis exprs, (∀ e ∈ exprs, motive e) → motive (.template quasis exprs))
    (arrow : ∀ params body, motive body → motive (.arrow params body))
    (assignment : ∀ left right, motive left → motive right → motive (.assignment left right))
    (object : ∀ properties, (∀ p ∈ properties, motive p.2) → motive (.object properties))
    (array : ∀ items, (∀ e ∈ items, motive e) → motive (.array items))
    (construct : ∀ callee types args, (∀ e ∈ args, motive e) →
      motive (.construct callee types args))
    (load : ∀ source, motive (.load source)) (e : Expr) : motive e :=
  @Expr.rec motive (fun es => ∀ e ∈ es, motive e) (fun ps => ∀ p ∈ ps, motive p.2)
    (fun p => motive p.2) identifier literal this member call template arrow assignment object array
    construct load (fun _ h => nomatch h) (fun _ _ h hs => List.forall_mem_cons.2 ⟨h, hs⟩)
    (fun _ h => nomatch h) (fun _ _ h hs => List.forall_mem_cons.2 ⟨h, hs⟩) (fun _ _ h => h) e

/-- The expressions that an expression is made of. -/
def children : Expr → List Expr
  | .member inner _ => [inner]
  | .call callee args => callee :: args
  | .template _ exprs => exprs
  | .arrow _ body => [body]
  | .assignment left right => [left, right]
  | .object properties => properties.map (·.2)
  | .array items => items
  | .construct _ _ args => args
  | .identifier _ | .literal _ | .this | .load _ => []

/-- An expression is the other one or stands within it. -/
inductive Within : Expr → Expr → Prop where
  | refl (e : Expr) : Within e e
  | child {x c e : Expr} (hc : c ∈ e.children) (hx : Within x c) : Within x e

/-- A condition on an expression and on all that stands within it. -/
def All (P : Expr → Prop) (e : Expr) : Prop :=
  ∀ x, Within x e → P x

lemma all_iff {P : Expr → Prop} {e : Expr} : e.All P ↔ P e ∧ ∀ c ∈ e.children, c.All P := by
  constructor
  · intro h
    exact ⟨h e (.refl e), fun c hc x hx => h x (.child hc hx)⟩
  · rintro ⟨he, hchildren⟩ x hx
    cases hx with
    | refl => exact he
    | child hc hx => exact hchildren _ hc x hx

/-- The condition, in a form that can be unfolded. -/
lemma all_iff_forall {P : Expr → Prop} {e : Expr} :
    e.All P ↔ P e ∧ e.children.Forall (All P) := by
  rw [all_iff, List.forall_iff_forall_mem]

end Expr

/-- The names in a type. -/
def TypeNode.names : TypeNode → List String
  | .named name => [name]
  | .array element => element.names
  | .any | .string | .number => []

/-- The names in a parameter. -/
def Param.names (p : Param) : List String :=
  p.name :: (p.type.map TypeNode.names).getD []

/-- The names that an expression itself holds, and that are printed as they are. -/
def Expr.names : Expr → List String
  | .identifier name => [name]
  | .member _ property => [property]
  | .arrow params _ => params.flatMap Param.names
  | .construct callee types _ => callee :: types.flatMap TypeNode.names
  | _ => []

/-! ### The printer -/

/-- Printing leaves the printer as it is. -/
def Keeps {α : Type} (print : Print α) : Prop :=
  ∀ printer : Printer, (print.run printer).2 = printer

namespace Keeps

variable {α β : Type}

lemma pure (a : α) : Keeps (pure a) :=
  fun _ => rfl

lemma bind {print : Print α} {next : α → Print β} (h : Keeps print) (hnext : ∀ a, Keeps (next a)) :
    Keeps (print >>= next) := by
  intro printer
  rw [StateT.run_bind]
  show ((next _).run (print.run printer).2).2 = printer
  rw [hnext, h]

/-- What is printed first leaves the printer to what comes next. -/
lemma run_bind {print : Print α} (h : Keeps print) (next : α → Print β) (printer : Printer) :
    (print >>= next).run printer = (next (print.run printer).1).run printer := by
  rw [StateT.run_bind]
  show (next _).run (print.run printer).2 = _
  rw [h]

lemma list (opening closing : String) (items : List Block) :
    Keeps (Printer.list opening closing items) :=
  fun _ => rfl

lemma unbroken {print : Print Block} (h : Keeps print) : Keeps (Printer.unbroken print) := by
  intro printer
  have hprint := h { printer with breaks := false }
  show { (print.run { printer with breaks := false }).2 with breaks := printer.breaks } = printer
  rw [hprint]

end Keeps

section Keeps

open Printer

lemma keeps_expressions {es : List Expr} (h : ∀ e ∈ es, Keeps (expression e)) :
    Keeps (expressions es) := by
  induction es with
  | nil =>
    rw [expressions]
    exact .pure _
  | cons e es ih =>
    obtain ⟨he, hes⟩ := List.forall_mem_cons.1 h
    rw [expressions]
    exact he.bind fun _ => (ih hes).bind fun _ => .pure _

lemma keeps_properties {ps : List (String × Expr)} (h : ∀ p ∈ ps, Keeps (expression p.2)) :
    Keeps (properties ps) := by
  induction ps with
  | nil =>
    rw [properties]
    exact .pure _
  | cons p ps ih =>
    obtain ⟨hp, hps⟩ := List.forall_mem_cons.1 h
    rw [properties]
    exact hp.bind fun _ => (ih hps).bind fun _ => .pure _

lemma keeps_templateBody (quasis : List String) {es : List Expr}
    (h : ∀ e ∈ es, Keeps (expression e)) : Keeps (templateBody quasis es) := by
  induction es generalizing quasis with
  | nil =>
    rw [templateBody]
    exact .pure _
  | cons e es ih =>
    obtain ⟨he, hes⟩ := List.forall_mem_cons.1 h
    rw [templateBody]
    exact he.bind fun _ => (ih quasis.tail hes).bind fun _ => .pure _

/-- Printing an expression leaves the printer as it is. -/
theorem keeps_expression (e : Expr) : Keeps (expression e) := by
  induction e using Expr.induction with
  | identifier | literal | this | load =>
    rw [expression]
    exact .pure _
  | member object property ih =>
    rw [expression]
    exact ih.bind fun _ => .pure _
  | call callee args ih ihs =>
    rw [expression]
    exact ih.bind fun _ => (keeps_expressions ihs).bind fun _ => .pure _
  | template quasis exprs ihs =>
    rw [expression]
    exact (keeps_templateBody quasis ihs).unbroken.bind fun _ => .pure _
  | arrow params body ih =>
    rw [expression]
    exact ih.bind fun _ => .pure _
  | assignment left right ihl ihr =>
    rw [expression]
    exact ihl.bind fun _ => ihr.bind fun _ => .pure _
  | object properties ihs =>
    rw [expression]
    exact (keeps_properties ihs).bind fun _ => .list _ _ _
  | array items ihs =>
    rw [expression]
    exact (keeps_expressions ihs).bind fun _ => .list _ _ _
  | construct callee types args ihs =>
    rw [expression]
    exact (keeps_expressions ihs).bind fun _ => .pure _

mutual

/-- Printing a statement leaves the printer as it is. -/
theorem keeps_statement : ∀ s : Statement, Keeps (statement s)
  | .importFrom .. => by
    rw [statement]
    exact .pure _
  | .expression value => by
    rw [statement]
    exact (keeps_expression value).bind fun _ => .pure _
  | .returning none => by
    rw [statement]
    exact .pure _
  | .returning (some value) => by
    rw [statement]
    exact (keeps_expression value).bind fun _ => .pure _
  | .exportDefault value => by
    rw [statement]
    exact (keeps_expression value).bind fun _ => .pure _
  | .exportDefaultOf d => by
    rw [statement]
    exact (keeps_declaration d).bind fun _ => .pure _
  | .exportNamed d => by
    rw [statement]
    exact (keeps_declaration d).bind fun _ => .pure _
  | .declare d => by
    rw [statement]
    exact keeps_declaration d

/-- Printing a declaration leaves the printer as it is. -/
theorem keeps_declaration : ∀ d : Declaration, Keeps (declaration d)
  | .ofClass _ _ body => by
    rw [declaration]
    exact (keeps_members body).bind fun _ => .pure _
  | .ofInterface .. => by
    rw [declaration]
    exact .pure _
  | .constant _ value => by
    rw [declaration]
    exact (keeps_expression value).bind fun _ => .pure _

theorem keeps_members : ∀ ms : List Member, Keeps (members ms)
  | [] => by
    rw [members]
    exact .pure _
  | m :: ms => by
    rw [members]
    exact (keeps_member m).bind fun _ => (keeps_members ms).bind fun _ => .pure _

theorem keeps_member : ∀ m : Member, Keeps (member m)
  | .property .. => by
    rw [member]
    exact .pure _
  | .method _ body => by
    rw [member]
    exact (keeps_statements body).bind fun _ => .pure _

theorem keeps_statements : ∀ ss : List Statement, Keeps (statements ss)
  | [] => by
    rw [statements]
    exact .pure _
  | s :: ss => by
    rw [statements]
    exact (keeps_statement s).bind fun _ => (keeps_statements ss).bind fun _ => .pure _

end

end Keeps

/-! ### What is printed -/

/-- What is printed for an expression. -/
def Expr.block (printer : Printer) (e : Expr) : Block :=
  ((Printer.expression e).run printer).1

/-- A property of an object, as it is printed. -/
def propertyBlock (printer : Printer) (p : String × Expr) : Block :=
  (Block.line (propertyKey p.1 ++ ": ")).glue (p.2.block printer)

/-- The inside of a template literal, as it is printed. -/
def bodyBlock (printer : Printer) (quasis : List String) (es : List Expr) : Block :=
  ((Printer.templateBody quasis es).run printer).1

/-- The types in a `new` expression. -/
def typeArguments (types : List TypeNode) : String :=
  if types.isEmpty then "" else "<" ++ ", ".intercalate (types.map typeText) ++ ">"

section Block

variable (printer : Printer)

lemma run_expressions (es : List Expr) :
    (Printer.expressions es).run printer = (es.map (Expr.block printer), printer) := by
  induction es with
  | nil =>
    rw [Printer.expressions]
    rfl
  | cons e es ih =>
    rw [Printer.expressions, (keeps_expression e).run_bind]
    show StateT.run (Printer.expressions es >>= _) printer = _
    rw [(keeps_expressions fun e _ => keeps_expression e).run_bind, ih]
    rfl

lemma run_properties (ps : List (String × Expr)) :
    (Printer.properties ps).run printer = (ps.map (propertyBlock printer), printer) := by
  induction ps with
  | nil =>
    rw [Printer.properties]
    rfl
  | cons p ps ih =>
    rw [Printer.properties, (keeps_expression p.2).run_bind]
    show StateT.run (Printer.properties ps >>= _) printer = _
    rw [(keeps_properties fun p _ => keeps_expression p.2).run_bind, ih]
    rfl

lemma block_identifier (name : String) : (Expr.identifier name).block printer = .line name := by
  rw [Expr.block, Printer.expression]
  rfl

lemma block_literal (value : String) :
    (Expr.literal value).block printer = .line (quoteString value) := by
  rw [Expr.block, Printer.expression]
  rfl

lemma block_this : Expr.this.block printer = .line "this" := by
  rw [Expr.block, Printer.expression]
  rfl

lemma block_member (object : Expr) (property : String) :
    (Expr.member object property).block printer = (object.block printer).push ("." ++ property) := by
  rw [Expr.block, Printer.expression, (keeps_expression object).run_bind]
  rfl

lemma block_call (callee : Expr) (args : List Expr) : (Expr.call callee args).block printer =
    (callee.block printer).glue (argumentList (args.map (Expr.block printer))) := by
  rw [Expr.block, Printer.expression, (keeps_expression callee).run_bind, StateT.run_bind,
    run_expressions]
  rfl

lemma block_template (quasis : List String) (es : List Expr) :
    (Expr.template quasis es).block printer =
      ((Block.line "`").glue (bodyBlock { printer with breaks := false } quasis es)).push "`" := by
  rw [Expr.block, Printer.expression,
    (keeps_templateBody quasis fun e _ => keeps_expression e).unbroken.run_bind]
  rfl

lemma block_arrow (params : List Param) (body : Expr) : (Expr.arrow params body).block printer =
    (Block.line ("(" ++ paramsText params ++ ") => ")).glue (body.block printer) := by
  rw [Expr.block, Printer.expression, (keeps_expression body).run_bind]
  rfl

lemma block_assignment (left right : Expr) : (Expr.assignment left right).block printer =
    ((left.block printer).push " = ").glue (right.block printer) := by
  rw [Expr.block, Printer.expression, (keeps_expression left).run_bind,
    (keeps_expression right).run_bind]
  rfl

lemma block_object (ps : List (String × Expr)) : (Expr.object ps).block printer =
    .list printer.measure printer.breaks "\x7b" "\x7d" (ps.map (propertyBlock printer)) := by
  rw [Expr.block, Printer.expression, StateT.run_bind, run_properties]
  rfl

lemma block_array (items : List Expr) : (Expr.array items).block printer =
    .list printer.measure printer.breaks "[" "]" (items.map (Expr.block printer)) := by
  rw [Expr.block, Printer.expression, StateT.run_bind, run_expressions]
  rfl

lemma block_construct (callee : String) (types : List TypeNode) (args : List Expr) :
    (Expr.construct callee types args).block printer =
      (Block.line ("new " ++ callee ++ typeArguments types)).glue
        (argumentList (args.map (Expr.block printer))) := by
  rw [Expr.block, Printer.expression, StateT.run_bind, run_expressions]
  rfl

lemma block_load (source : String) :
    (Expr.load source).block printer = .line ("import(" ++ quoteString source ++ ")") := by
  rw [Expr.block, Printer.expression]
  rfl

lemma bodyBlock_nil (quasis : List String) :
    bodyBlock printer quasis [] = .line (String.join (quasis.map escapeTemplate)) := by
  rw [bodyBlock, Printer.templateBody]
  rfl

lemma bodyBlock_cons (quasis : List String) (e : Expr) (es : List Expr) :
    bodyBlock printer quasis (e :: es) =
      (((Block.line ((quasis.head?.map escapeTemplate).getD "" ++ "$\x7b")).glue
        (e.block printer)).push "\x7d").glue (bodyBlock printer quasis.tail es) := by
  rw [bodyBlock, Printer.templateBody, (keeps_expression e).run_bind, StateT.run_bind]
  rfl

end Block

/-! ### One line -/

mutual

/-- An expression on one line. -/
def Expr.inline : Expr → String
  | .identifier name => name
  | .literal value => quoteString value
  | .this => "this"
  | .member inner property => inner.inline ++ ("." ++ property)
  | .call callee args => callee.inline ++ ("(" ++ ", ".intercalate (inlineAll args) ++ ")")
  | .template quasis exprs => "`" ++ inlineBody quasis exprs ++ "`"
  | .arrow params body => "(" ++ paramsText params ++ ") => " ++ body.inline
  | .assignment left right => left.inline ++ " = " ++ right.inline
  | .object ps =>
    if ps.isEmpty then "\x7b\x7d"
    else "\x7b " ++ ", ".intercalate (inlineProperties ps) ++ " \x7d"
  | .array items => "[" ++ ", ".intercalate (inlineAll items) ++ "]"
  | .construct callee types args =>
    "new " ++ callee ++ typeArguments types ++ ("(" ++ ", ".intercalate (inlineAll args) ++ ")")
  | .load source => "import(" ++ quoteString source ++ ")"

def inlineAll : List Expr → List String
  | [] => []
  | e :: es => e.inline :: inlineAll es

def inlineProperties : List (String × Expr) → List String
  | [] => []
  | (key, e) :: ps => (propertyKey key ++ ": " ++ e.inline) :: inlineProperties ps

/-- The inside of a template literal. -/
def inlineBody : List String → List Expr → String
  | quasis, [] => String.join (quasis.map escapeTemplate)
  | quasis, e :: es =>
    (quasis.head?.map escapeTemplate).getD "" ++ "$\x7b" ++ e.inline ++ "\x7d" ++
      inlineBody quasis.tail es

end

lemma inlineAll_eq (es : List Expr) : inlineAll es = es.map Expr.inline := by
  induction es with
  | nil => rw [inlineAll, List.map_nil]
  | cons e es ih => rw [inlineAll, ih, List.map_cons]

lemma inlineProperties_eq (ps : List (String × Expr)) :
    inlineProperties ps = ps.map fun p => propertyKey p.1 ++ ": " ++ p.2.inline := by
  induction ps with
  | nil => rw [inlineProperties, List.map_nil]
  | cons p ps ih => rw [inlineProperties, ih, List.map_cons]

lemma argumentList_lines (lines : List String) :
    argumentList (lines.map Block.line) = .line ("(" ++ ", ".intercalate lines ++ ")") := by
  cases lines with
  | nil => rfl
  | cons line lines =>
    rw [argumentList, commaSeparated_lines]
    rfl

/-- A list that may not be broken, on one line. -/
lemma list_lines (measure : String → Nat) (opening closing : String) {lines : List String}
    (h : lines ≠ []) :
    Block.list measure false opening closing (lines.map Block.line) =
      .line (opening ++ (if opening = "\x7b" then " " else "") ++ ", ".intercalate lines ++
        ((if opening = "\x7b" then " " else "") ++ closing)) := by
  obtain ⟨line, lines, rfl⟩ := List.exists_cons_of_ne_nil h
  unfold Block.list Block.inlineList
  rw [commaSeparated_lines]
  rfl

lemma bodyBlock_inline {printer : Printer} (quasis : List String) {es : List Expr}
    (h : ∀ e ∈ es, e.block printer = .line e.inline) :
    bodyBlock printer quasis es = .line (inlineBody quasis es) := by
  induction es generalizing quasis with
  | nil => rw [bodyBlock_nil, inlineBody]
  | cons e es ih =>
    obtain ⟨he, hes⟩ := List.forall_mem_cons.1 h
    rw [bodyBlock_cons, he, ih quasis.tail hes, inlineBody, glue_line, push_line, glue_line]

/-- **While lists may not be broken, an expression takes one line.** -/
theorem block_inline {printer : Printer} (hbreaks : printer.breaks = false) (e : Expr) :
    e.block printer = .line e.inline := by
  have hmap : ∀ es : List Expr, (∀ e ∈ es, e.block printer = .line e.inline) →
      es.map (Expr.block printer) = (inlineAll es).map Block.line := by
    intro es h
    rw [inlineAll_eq, List.map_map]
    exact List.map_congr_left h
  induction e using Expr.induction with
  | identifier name => rw [block_identifier, Expr.inline]
  | literal value => rw [block_literal, Expr.inline]
  | this => rw [block_this, Expr.inline]
  | member object property ih => rw [block_member, ih, Expr.inline, push_line]
  | call callee args ih ihs =>
    rw [block_call, ih, hmap args ihs, argumentList_lines, Expr.inline, glue_line]
  | template quasis exprs ihs =>
    have hprinter : { printer with breaks := false } = printer := by rw [← hbreaks]
    rw [block_template, hprinter, bodyBlock_inline quasis ihs, Expr.inline, glue_line,
      push_line]
  | arrow params body ih => rw [block_arrow, ih, Expr.inline, glue_line]
  | assignment left right ihl ihr =>
    rw [block_assignment, ihl, ihr, Expr.inline, push_line, glue_line]
  | object ps ihs =>
    have hps : ps.map (propertyBlock printer) = (inlineProperties ps).map Block.line := by
      rw [inlineProperties_eq, List.map_map]
      refine List.map_congr_left fun p hp => ?_
      rw [propertyBlock, ihs p hp, glue_line]
      rfl
    cases ps with
    | nil =>
      rw [block_object, Expr.inline]
      rfl
    | cons p ps =>
      rw [block_object, hbreaks, hps, list_lines _ _ _ (by simp [inlineProperties_eq]), Expr.inline]
      rfl
  | array items ihs =>
    cases items with
    | nil =>
      rw [block_array, Expr.inline]
      rfl
    | cons item items =>
      rw [block_array, hbreaks, hmap _ ihs, list_lines _ _ _ (by simp [inlineAll_eq]), Expr.inline,
        if_neg (by decide), String.append_empty, String.empty_append]
  | construct callee types args ihs =>
    rw [block_construct, hmap args ihs, argumentList_lines, Expr.inline, glue_line]
  | load source => rw [block_load, Expr.inline]

/-- A template literal takes one line, whatever the printer. -/
lemma block_template_inline (printer : Printer) (quasis : List String) (es : List Expr) :
    (Expr.template quasis es).block printer = .line (Expr.template quasis es).inline := by
  have hbody : bodyBlock { printer with breaks := false } quasis es = .line (inlineBody quasis es) :=
    bodyBlock_inline quasis fun e _ => block_inline rfl e
  rw [block_template, hbody, Expr.inline, glue_line, push_line]

/-! ### Properties of all that is on the line -/

/-- What types and parameters are made of besides names. -/
def typeWords : List String :=
  ["", "any", "string", "number", "[]", ": ", ", "]

/-- What other code is made of besides names, literals, objects and what types are made of. -/
def codeWords : List String :=
  [" ", "this", ".", "(", ")", ") => ", " = ", "[", "]", "new ", "<", ">", "import("]

/-- A property that types and parameters have if the names in them have it. -/
structure Joinable (P : String → Prop) : Prop where
  append {a b : String} : P a → P b → P (a ++ b)
  typeWord : ∀ word ∈ typeWords, P word

/-- A property that expressions have if the names and the template literals in them have it. -/
structure Composable (P : String → Prop) : Prop extends Joinable P where
  codeWord : ∀ word ∈ codeWords, P word
  identifier {name : String} : isIdentifier name = true → P name
  quoted (text : String) : P (quoteString text)
  braced {text : String} : P text → P ("\x7b" ++ text ++ "\x7d")

/-- The names that an expression itself holds have the property, and so does the expression if it is a
template literal whose expressions have it. -/
def Bears (P : String → Prop) (x : Expr) : Prop :=
  (∀ n ∈ x.names, P n) ∧
    ∀ quasis exprs, x = .template quasis exprs → (∀ e ∈ exprs, P e.inline) → P x.inline

namespace Joinable

variable {P : String → Prop} (hP : Joinable P)

include hP

lemma commas {texts : List String} (h : ∀ text ∈ texts, P text) : P (", ".intercalate texts) := by
  induction texts with
  | nil => exact hP.typeWord "" (by decide)
  | cons text texts ih =>
    obtain ⟨htext, htexts⟩ := List.forall_mem_cons.1 h
    cases texts with
    | nil => rwa [String.intercalate_singleton]
    | cons next texts =>
      rw [String.intercalate_cons_cons]
      exact hP.append (hP.append htext (hP.typeWord _ (by decide))) (ih htexts)

lemma typeText {type : TypeNode} (h : ∀ n ∈ type.names, P n) : P (typeText type) := by
  induction type with
  | any | string | number => exact hP.typeWord _ (by decide)
  | array element ih => exact hP.append (ih h) (hP.typeWord _ (by decide))
  | named name => exact h name (List.mem_singleton_self name)

lemma typeTexts {types : List TypeNode} (h : ∀ n ∈ types.flatMap TypeNode.names, P n) :
    P (", ".intercalate (types.map Script.typeText)) := by
  refine hP.commas fun text htext => ?_
  obtain ⟨type, htype, rfl⟩ := List.mem_map.1 htext
  exact hP.typeText fun n hn => h n (List.mem_flatMap.2 ⟨type, htype, hn⟩)

lemma param {p : Param} (h : ∀ n ∈ p.names, P n) : P (p.name ++ typeAnnotation p.type) := by
  obtain ⟨hname, htype⟩ := List.forall_mem_cons.1 h
  refine hP.append hname ?_
  cases hcase : p.type with
  | none => exact hP.typeWord "" (by decide)
  | some type =>
    rw [hcase] at htype
    exact hP.append (hP.typeWord _ (by decide)) (hP.typeText htype)

lemma paramsText {params : List Param} (h : ∀ n ∈ params.flatMap Param.names, P n) :
    P (paramsText params) := by
  refine hP.commas fun text htext => ?_
  obtain ⟨p, hp, rfl⟩ := List.mem_map.1 htext
  exact hP.param fun n hn => h n (List.mem_flatMap.2 ⟨p, hp, hn⟩)

end Joinable

namespace Composable

variable {P : String → Prop} (hP : Composable P)

include hP

lemma typeArguments {types : List TypeNode} (h : ∀ n ∈ types.flatMap TypeNode.names, P n) :
    P (typeArguments types) := by
  unfold Script.typeArguments
  split
  · exact hP.typeWord "" (by decide)
  · exact hP.append (hP.append (hP.codeWord _ (by decide)) (hP.typeTexts h)) (hP.codeWord _ (by decide))

lemma arguments {texts : List String} (h : ∀ text ∈ texts, P text) :
    P ("(" ++ ", ".intercalate texts ++ ")") :=
  hP.append (hP.append (hP.codeWord _ (by decide)) (hP.commas h)) (hP.codeWord _ (by decide))

lemma properties {texts : List String} (h : ∀ text ∈ texts, P text) :
    P ("\x7b " ++ ", ".intercalate texts ++ " \x7d") := by
  have hblank : P " " := hP.codeWord _ (by decide)
  have hsplit : "\x7b " ++ ", ".intercalate texts ++ " \x7d" =
      "\x7b" ++ (" " ++ ", ".intercalate texts ++ " ") ++ "\x7d" := by
    apply String.toList_injective
    simp
  rw [hsplit]
  exact hP.braced (hP.append (hP.append hblank (hP.commas h)) hblank)

/-- **A property of all that an expression is made of is one of the expression on its line.** -/
theorem inline {e : Expr} (h : e.All (Bears P)) : P e.inline := by
  have hlist : ∀ es : List Expr, (∀ e ∈ es, P e.inline) → ∀ text ∈ inlineAll es, P text := by
    intro es hes text htext
    rw [inlineAll_eq] at htext
    obtain ⟨e, he, rfl⟩ := List.mem_map.1 htext
    exact hes e he
  induction e using Expr.induction with
  | identifier name =>
    obtain ⟨hown, -⟩ := Expr.all_iff.1 h
    rw [Expr.inline]
    exact hown.1 name (List.mem_singleton_self name)
  | literal value =>
    rw [Expr.inline]
    exact hP.quoted value
  | this =>
    rw [Expr.inline]
    exact hP.codeWord _ (by decide)
  | member object property ih =>
    obtain ⟨hown, hparts⟩ := Expr.all_iff.1 h
    rw [Expr.inline]
    exact hP.append (ih (hparts object (List.mem_singleton_self object)))
      (hP.append (hP.codeWord _ (by decide)) (hown.1 property (List.mem_singleton_self property)))
  | call callee args ih ihs =>
    obtain ⟨hcallee, hargs⟩ := List.forall_mem_cons.1 (Expr.all_iff.1 h).2
    rw [Expr.inline]
    exact hP.append (ih hcallee) (hP.arguments (hlist args fun e he => ihs e he (hargs e he)))
  | template quasis exprs ihs =>
    obtain ⟨hown, hexprs⟩ := Expr.all_iff.1 h
    exact hown.2 quasis exprs rfl fun e he => ihs e he (hexprs e he)
  | arrow params body ih =>
    obtain ⟨hown, hparts⟩ := Expr.all_iff.1 h
    have hhead : P ("(" ++ paramsText params ++ ") => ") :=
      hP.append (hP.append (hP.codeWord _ (by decide)) (hP.paramsText hown.1))
        (hP.codeWord _ (by decide))
    rw [Expr.inline]
    exact hP.append hhead (ih (hparts body (List.mem_singleton_self body)))
  | assignment left right ihl ihr =>
    obtain ⟨hleft, hright⟩ := List.forall_mem_cons.1 (Expr.all_iff.1 h).2
    rw [Expr.inline]
    exact hP.append (hP.append (ihl hleft) (hP.codeWord _ (by decide)))
      (ihr (hright right (List.mem_singleton_self right)))
  | object ps ihs =>
    have hps := List.forall_mem_map.1 (Expr.all_iff.1 h).2
    rw [Expr.inline]
    split
    · exact hP.braced (hP.typeWord "" (by decide))
    · refine hP.properties fun text htext => ?_
      rw [inlineProperties_eq] at htext
      obtain ⟨p, hp, rfl⟩ := List.mem_map.1 htext
      have hkey : P (propertyKey p.1) := by
        unfold propertyKey
        split
        · exact hP.identifier ‹_›
        · exact hP.quoted p.1
      exact hP.append (hP.append hkey (hP.typeWord _ (by decide))) (ihs p hp (hps p hp))
  | array items ihs =>
    have hitems := (Expr.all_iff.1 h).2
    rw [Expr.inline]
    exact hP.append (hP.append (hP.codeWord _ (by decide))
      (hP.commas (hlist items fun e he => ihs e he (hitems e he)))) (hP.codeWord _ (by decide))
  | construct callee types args ihs =>
    obtain ⟨hown, hargs⟩ := Expr.all_iff.1 h
    obtain ⟨hcallee, htypes⟩ := List.forall_mem_cons.1 hown.1
    have hhead : P ("new " ++ callee ++ Script.typeArguments types) :=
      hP.append (hP.append (hP.codeWord _ (by decide)) hcallee) (hP.typeArguments htypes)
    rw [Expr.inline]
    exact hP.append hhead (hP.arguments (hlist args fun e he => ihs e he (hargs e he)))
  | load source =>
    rw [Expr.inline]
    exact hP.append (hP.append (hP.codeWord _ (by decide)) (hP.quoted source))
      (hP.codeWord _ (by decide))

end Composable

/-! ### Line feeds -/

/-- The text has no line feed in it. -/
def Unbroken (text : String) : Prop :=
  '\n' ∉ text.toList

instance (text : String) : Decidable (Unbroken text) :=
  inferInstanceAs (Decidable ('\n' ∉ text.toList))

lemma Unbroken.append {a b : String} (ha : Unbroken a) (hb : Unbroken b) : Unbroken (a ++ b) := by
  unfold Unbroken at ha hb ⊢
  rw [String.toList_append, List.mem_append]
  exact not_or.2 ⟨ha, hb⟩

lemma unbroken_of_isIdentifier {name : String} (h : isIdentifier name = true) : Unbroken name := by
  obtain ⟨_, _, _, _, hparts⟩ := exists_cons_of_isIdentifier h
  intro hmem
  cases hparts _ hmem

/-- A line feed is written with a letter. -/
lemma newline_not_mem_escapeChar (c : Char) : '\n' ∉ escapeChar c := by
  rcases escapeChar_cases c with ⟨e, he, -, hline, -⟩ | ⟨he, -, hline, -⟩
  · rw [he]
    simpa using hline.symm
  · rw [he]
    simpa using hline.symm

lemma unbroken_quoteString (text : String) : Unbroken (quoteString text) := by
  have hquote : '\n' ≠ chooseQuote text.toList := by
    rcases chooseQuote_cases text.toList with h | h <;> rw [h] <;> decide
  have hbody : '\n' ∉ escapeQuoted (chooseQuote text.toList) text.toList := by
    intro hmem
    obtain ⟨c, -, hc⟩ := List.mem_flatMap.1 hmem
    split at hc
    · simp [hquote] at hc
    · exact newline_not_mem_escapeChar c hc
  unfold Unbroken quoteString quoteChars
  rw [String.toList_ofList]
  simp [hquote, hbody]

lemma unbroken_escapeTemplate (text : String) : Unbroken (escapeTemplate text) := by
  unfold Unbroken escapeTemplate
  rw [String.toList_ofList]
  fun_induction escapeTemplateChars text.toList with
  | case1 => simp
  | case2 cs ih => simpa using ih
  | case3 c cs _ ih =>
    rw [List.mem_append, not_or]
    refine ⟨?_, ih⟩
    split
    · rename_i hc
      simp [hc]
    · exact newline_not_mem_escapeChar c

lemma unbroken_inlineBody (quasis : List String) {es : List Expr}
    (h : ∀ e ∈ es, Unbroken e.inline) : Unbroken (inlineBody quasis es) := by
  induction es generalizing quasis with
  | nil =>
    rw [inlineBody]
    induction quasis with
    | nil => decide
    | cons quasi quasis ih =>
      rw [List.map_cons, String.join_cons]
      exact (unbroken_escapeTemplate quasi).append ih
  | cons e es ih =>
    obtain ⟨he, hes⟩ := List.forall_mem_cons.1 h
    have hquasi : Unbroken ((quasis.head?.map escapeTemplate).getD "") := by
      cases quasis with
      | nil => decide
      | cons quasi quasis => exact unbroken_escapeTemplate quasi
    rw [inlineBody]
    exact (((hquasi.append (by decide)).append he).append (by decide)).append (ih quasis.tail hes)

lemma composable_unbroken : Composable Unbroken where
  append := Unbroken.append
  typeWord := by decide
  codeWord := by decide
  identifier := unbroken_of_isIdentifier
  quoted := unbroken_quoteString
  braced h := .append (.append (by decide) h) (by decide)

/-- An expression on one line has line feeds only in its names. -/
theorem unbroken_inline {e : Expr} (h : e.All fun x => ∀ n ∈ x.names, Unbroken n) :
    Unbroken e.inline := by
  refine composable_unbroken.inline fun x hx => ⟨h x hx, ?_⟩
  rintro quasis exprs rfl hexprs
  rw [Expr.inline]
  exact .append (.append (by decide) (unbroken_inlineBody quasis hexprs)) (by decide)

/-- **Printing leaves the printer as it is, and a template literal on one line.** After an expression,
a statement or a declaration the printer is the one from before, with its switch for line breaks.
A template literal is one line under every printer, whatever its texts and expressions are and however
many there are of each; there is no line feed in it if there is none in the names. -/
theorem template_one_line :
    (∀ (printer : Printer) (e : Expr), ((Printer.expression e).run printer).2 = printer) ∧
    (∀ (printer : Printer) (s : Script.Statement),
      ((Printer.statement s).run printer).2 = printer) ∧
    (∀ (printer : Printer) (d : Declaration), ((Printer.declaration d).run printer).2 = printer) ∧
    ∀ (quasis : List String) (exprs : List Expr), ∃ line, ∀ printer : Printer,
      (Printer.expression (.template quasis exprs)).run printer = (.line line, printer) ∧
      printed printer (.template quasis exprs) = line ∧
      (((Expr.template quasis exprs).All fun x => ∀ n ∈ x.names, '\n' ∉ n.toList) →
        '\n' ∉ line.toList) := by
  refine ⟨fun printer e => keeps_expression e printer, fun printer s => keeps_statement s printer,
    fun printer d => keeps_declaration d printer, fun quasis exprs => ?_⟩
  refine ⟨(Expr.template quasis exprs).inline, fun printer => ⟨?_, ?_, unbroken_inline⟩⟩
  · exact Prod.ext (block_template_inline printer quasis exprs) (keeps_expression _ printer)
  · show ((Expr.template quasis exprs).block printer).text = _
    rw [block_template_inline]
    rfl

/-- A template literal with more texts than it has places for, around a list that is too wide for a
line, and one without texts in it. -/
def crowdedTemplate : Expr :=
  .template ["a\nb", "$", "\x7b", "left\nover"]
    [.array [.object [("first\nname", .literal (String.ofList (List.replicate 80 'x'))),
      ("id", .template [] [.call (.member .this "f") [.array [.literal "\n", .identifier "y"]]])],
      .arrow [⟨"p", some (.array (.named "T"))⟩] (.construct "Map" [.named "K"] [.load "\n"])]]

theorem template_one_line_crowded :
    (crowdedTemplate.All fun x => ∀ n ∈ x.names, '\n' ∉ n.toList) ∧
    ∃ line, ∀ printer : Printer,
      (Printer.expression crowdedTemplate).run printer = (.line line, printer) ∧
      '\n' ∉ line.toList := by
  have hnames : crowdedTemplate.All fun x => ∀ n ∈ x.names, '\n' ∉ n.toList := by
    simp only [crowdedTemplate, Expr.all_iff_forall, Expr.children, List.map_cons, List.map_nil,
      List.forall_cons, List.Forall]
    and_intros <;> decide
  obtain ⟨line, hline⟩ := template_one_line.2.2.2 _ _
  exact ⟨hnames, line, fun printer => ⟨(hline printer).1, (hline printer).2.2 hnames⟩⟩

end Polyglot.Script
