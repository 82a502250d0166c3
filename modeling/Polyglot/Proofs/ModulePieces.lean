import Polyglot.Generate.Targets
import Polyglot.Proofs.Substitution
import Polyglot.Proofs.TemplateMeaning

/-!
# The pieces of a module

What is printed for a catalog is made of pieces that depend on the catalog and the reports alone. Only
the words of placeholders and cache keys are chosen on the way, one after the other, in the order in
which they stand in the text.

* `Lays`, `LaysAll`: the lines that are printed for statements and members;
* `fillAll`: how words are chosen for pieces;
* `modulePieces`: the pieces of a module;
* `localeProgram_pieces`: the main statement.
-/

namespace Polyglot

namespace Script

/-! ### Lines -/

/-- What is printed has these lines, which no printer changes, and the printer stays as it is. -/
def Lays (print : Print Block) (lines : List String) : Prop :=
  ∀ printer : Printer, print.run printer = (⟨lines⟩, printer)

/-- The blocks that are printed have these lines in all. -/
def LaysAll (print : Print (List Block)) (lines : List String) : Prop :=
  ∀ printer : Printer, ∃ blocks,
    print.run printer = (blocks, printer) ∧ blocks.flatMap Block.lines = lines

lemma laysAll_nil_statements : LaysAll (Printer.statements []) [] := by
  intro printer
  rw [Printer.statements]
  exact ⟨[], rfl, rfl⟩

lemma laysAll_nil_members : LaysAll (Printer.members []) [] := by
  intro printer
  rw [Printer.members]
  exact ⟨[], rfl, rfl⟩

lemma Lays.statements {s : Statement} {ss : List Statement} {first rest : List String}
    (h : Lays (Printer.statement s) first) (hs : LaysAll (Printer.statements ss) rest) :
    LaysAll (Printer.statements (s :: ss)) (first ++ rest) := by
  intro printer
  obtain ⟨blocks, hblocks, rfl⟩ := hs printer
  refine ⟨⟨first⟩ :: blocks, ?_, rfl⟩
  rw [Printer.statements, StateT.run_bind, h printer]
  show StateT.run (Printer.statements ss >>= _) printer = _
  rw [StateT.run_bind, hblocks]
  rfl

lemma statements_append_run (ss ts : List Statement) (printer : Printer) :
    (Printer.statements (ss ++ ts)).run printer =
      (((Printer.statements ss).run printer).1 ++
          ((Printer.statements ts).run ((Printer.statements ss).run printer).2).1,
        ((Printer.statements ts).run ((Printer.statements ss).run printer).2).2) := by
  induction ss generalizing printer with
  | nil =>
    rw [Printer.statements]
    rfl
  | cons s ss ih =>
    rw [List.cons_append, Printer.statements, Printer.statements, StateT.run_bind, StateT.run_bind]
    show StateT.run (Printer.statements (ss ++ ts) >>= _) ((Printer.statement s).run printer).2 = _
    rw [StateT.run_bind, ih]
    rfl

lemma LaysAll.append {ss ts : List Statement} {first rest : List String}
    (h : LaysAll (Printer.statements ss) first) (h' : LaysAll (Printer.statements ts) rest) :
    LaysAll (Printer.statements (ss ++ ts)) (first ++ rest) := by
  intro printer
  obtain ⟨blocks, hblocks, rfl⟩ := h printer
  obtain ⟨blocks', hblocks', rfl⟩ := h' printer
  refine ⟨blocks ++ blocks', ?_, List.flatMap_append ..⟩
  rw [statements_append_run, hblocks, hblocks']

lemma Lays.members {m : Member} {ms : List Member} {first rest : List String}
    (h : Lays (Printer.member m) first) (hs : LaysAll (Printer.members ms) rest) :
    LaysAll (Printer.members (m :: ms)) (first ++ rest) := by
  intro printer
  obtain ⟨blocks, hblocks, rfl⟩ := hs printer
  refine ⟨⟨first⟩ :: blocks, ?_, rfl⟩
  rw [Printer.members, StateT.run_bind, h printer]
  show StateT.run (Printer.members ms >>= _) printer = _
  rw [StateT.run_bind, hblocks]
  rfl

lemma lays_importFrom (names : List ImportName) (source : String) :
    Lays (Printer.statement (.importFrom names source)) [importText names source] := by
  intro printer
  rw [Printer.statement]
  rfl

lemma OneLine.assignment {left right : Expr} {line line' : String} (h : OneLine left line)
    (h' : OneLine right line') : OneLine (.assignment left right) (line ++ " = " ++ line') := by
  intro printer
  rw [Printer.expression, StateT.run_bind, h printer]
  show StateT.run (Printer.expression right >>= _) printer = _
  rw [StateT.run_bind, h' printer]
  rfl

lemma OneLine.lays_expression {e : Expr} {line : String} (h : OneLine e line) :
    Lays (Printer.statement (.expression e)) [line ++ ";"] := by
  intro printer
  rw [Printer.statement, StateT.run_bind, h printer]
  rfl

lemma OneLine.lays_returning {e : Expr} {line : String} (h : OneLine e line) :
    Lays (Printer.statement (.returning (some e))) ["return " ++ line ++ ";"] := by
  intro printer
  rw [Printer.statement, StateT.run_bind, h printer]
  rfl

lemma lays_property (key : String) (type : Option TypeNode) :
    Lays (Printer.member (.property key type))
      ["private " ++ propertyKey key ++ typeAnnotation type ++ ";"] := by
  intro printer
  rw [Printer.member]
  rfl

/-- Lines between braces, after some text. -/
lemma glue_braced (text : String) {blocks : List Block} (h : blocks.flatMap Block.lines ≠ []) :
    (Block.line text).glue (Block.stack blocks).braced =
      ⟨(text ++ "\x7b") :: (blocks.flatMap Block.lines).map Block.indentLine ++ ["\x7d"]⟩ := by
  have hstack : (Block.stack blocks).lines.isEmpty = false := by
    simpa [Block.stack] using h
  unfold Block.braced
  rw [hstack]
  rfl

lemma LaysAll.lays_method {body : List Statement} {lines : List String}
    (h : LaysAll (Printer.statements body) lines) (hlines : lines ≠ []) (head : MethodHead) :
    Lays (Printer.member (.method head body))
      (("public " ++ headText head ++ " " ++ "\x7b") :: lines.map Block.indentLine ++ ["\x7d"]) := by
  intro printer
  obtain ⟨blocks, hblocks, rfl⟩ := h printer
  rw [Printer.member, StateT.run_bind, hblocks]
  show ((Block.line _).glue (Block.stack blocks).braced, printer) = _
  rw [glue_braced _ hlines]

lemma LaysAll.lays_class {body : List Member} {lines : List String}
    (h : LaysAll (Printer.members body) lines) (hlines : lines ≠ []) (name interfaceName : String) :
    Lays (Printer.declaration (.ofClass name [interfaceName] body))
      (("class " ++ name ++ " " ++ ("implements " ++ interfaceName ++ " ") ++ "\x7b") ::
        lines.map Block.indentLine ++ ["\x7d"]) := by
  intro printer
  obtain ⟨blocks, hblocks, rfl⟩ := h printer
  rw [Printer.declaration, StateT.run_bind, hblocks]
  show ((Block.line _).glue (Block.stack blocks).braced, printer) = _
  rw [glue_braced _ hlines]
  simp

lemma Lays.exportDefaultOf {d : Declaration} {first : String} {rest : List String}
    (h : Lays (Printer.declaration d) (first :: rest)) :
    Lays (Printer.statement (.exportDefaultOf d)) (("export default " ++ first) :: rest) := by
  intro printer
  rw [Printer.statement, StateT.run_bind, h printer]
  rfl

/-- Lines, each with a line feed after it. -/
def linesText (lines : List String) : String :=
  String.join (lines.map (· ++ "\n"))

@[simp] lemma linesText_nil : linesText [] = "" := rfl

@[simp] lemma linesText_cons (line : String) (lines : List String) :
    linesText (line :: lines) = line ++ "\n" ++ linesText lines := by
  simp [linesText]

@[simp] lemma linesText_append (lines more : List String) :
    linesText (lines ++ more) = linesText lines ++ linesText more := by
  simp [linesText]

lemma intercalate_concat_empty (lines : List String) :
    "\n".intercalate (lines ++ [""]) = linesText lines := by
  induction lines with
  | nil => rfl
  | cons line lines ih =>
    cases lines with
    | nil => simp [String.intercalate_cons_cons]
    | cons next lines =>
      rw [List.cons_append, List.cons_append, String.intercalate_cons_cons, ← List.cons_append, ih,
        linesText_cons line]

/-- The text of a program: all its lines. -/
lemma text_eq_linesText {p : Program} {lines : List String}
    (h : LaysAll (Printer.statements p.body) lines) :
    p.text = linesText ((p.comments.map printComment).flatMap Block.lines ++ lines) := by
  obtain ⟨blocks, hblocks, rfl⟩ := h {}
  have hrun : ((Printer.program p).run {}).1 =
      .stack (p.comments.map printComment ++ blocks ++ [.line ""]) := by
    rw [Printer.program, StateT.run_bind, hblocks]
    rfl
  rw [Program.text, hrun, ← intercalate_concat_empty]
  simp [Block.text, Block.stack, Block.line]

end Script

namespace Generate

open Script

/-! ### Choosing words -/

namespace Piece

/-- Choose a word for what is open in a piece. -/
def fill : Piece Unit → Build (Piece Word)
  | text s => return text s
  | code c _ => do
    let m ← get
    let (w, insertion, supply) := m.insertion.add m.supply c
    set { m with insertion, supply }
    return code c w
  | key _ => do
    let m ← get
    let (w, supply) := m.supply.draw m.cacheKeys
    set { m with cacheKeys := w :: m.cacheKeys, supply }
    return key w

end Piece

/-- Choose words for all that is open, from the left. -/
def fillAll : List (Piece Unit) → Build (List (Piece Word))
  | [] => return []
  | p :: ps => do
    let q ← p.fill
    return q :: (← fillAll ps)

lemma fillAll_append_run (ps qs : List (Piece Unit)) (m : Materials) :
    (fillAll (ps ++ qs)).run m =
      (((fillAll ps).run m).1 ++ ((fillAll qs).run ((fillAll ps).run m).2).1,
        ((fillAll qs).run ((fillAll ps).run m).2).2) := by
  induction ps generalizing m with
  | nil => rfl
  | cons p ps ih =>
    rw [List.cons_append, fillAll, fillAll, StateT.run_bind, StateT.run_bind]
    show StateT.run (fillAll (ps ++ qs) >>= _) (p.fill.run m).2 = _
    rw [StateT.run_bind, ih]
    rfl

/-- The expression that is built is printed as these pieces, with the words that are chosen on the
way. -/
def Prints (build : Build Expr) (ps : List (Piece Unit)) : Prop :=
  ∀ m, OneLine (build.run m).1 (textOf Piece.printed ((fillAll ps).run m).1) ∧
    (build.run m).2 = ((fillAll ps).run m).2

/-! ### The pieces of a module -/

/-- The expression that gives the text of a parameter. -/
def formatPieces (context name : String) : Option Format → List (Piece Unit)
  | none => [.text name]
  | some (.explicit code) => [.code code (), .text ("(" ++ name ++ ")")]
  | some (.shorthand code) =>
    [.text ("this" ++ "." ++ formatterProperty ++ "." ++ formatMethod ++ "(" ++ name ++ ", " ++ "(" ++
        formatterName ++ ") => "),
      .code code (), .text ", ", .key (),
      .text (", " ++ quoteString s!"parameter '{name}' in {context}" ++ ")")]

/-- The inside of a template literal, from somewhere in a run of text on. -/
def contentPieces (context : String) : (run : String) → List Part → List (Piece Unit)
  | run, [] => [.text (escapeTemplate run)]
  | run, .text s :: ps => contentPieces context (run ++ s) ps
  | run, .parameter name format :: ps =>
    .text (escapeTemplate run ++ "$\x7b") :: formatPieces context name format ++
      .text "\x7d" :: contentPieces context "" ps
  | run, .reference _ :: ps => contentPieces context run ps

/-- The value of the member for a key: a template literal. -/
def valuePieces (catalog : Catalog) (key : String) : List (Piece Unit) :=
  match catalog.exposed? key with
  | some m => .text "\x60" :: contentPieces s!"{key}, {catalog.id}" "" m.content ++ [.text "\x60"]
  | none => [.text ("\x60" ++ escapeTemplate ("<" ++ key ++ ">") ++ "\x60")]

/-- The member for a key. -/
def memberPieces (reports : Reports) (catalog : Catalog) (key : String) : List (Piece Unit) :=
  .text ("  public " ++ headText (.ofMessage key (memberParams reports key)) ++ " \x7b\n    return ") ::
    valuePieces catalog key ++ [.text ";\n  \x7d\n"]

/-- The code at the top of a module. -/
def headerPieces (catalog : Catalog) : List (Piece Unit) :=
  match catalog.header with
  | some code => [.code code (), .text ";\n"]
  | none => []

/-- The module of a catalog. -/
def modulePieces (o : TargetOptions) (reports : Reports) (catalog : Catalog) (source : String) :
    List (Piece Unit) :=
  .text (linesText ((printComment (noticeText o.tool [source])).lines ++
      [importText [.named formatterClass none] runtimeModule,
        importText [.named o.interfaceName none] "."])) ::
    headerPieces catalog ++
    .text (linesText ["export default class " ++ o.className catalog.id ++ " implements " ++
        o.interfaceName ++ " \x7b",
      "  private fmt: Fmt;", "  public constructor(fmt: Fmt) \x7b", "    this.fmt = fmt;", "  \x7d"]) ::
    reports.coverage.keys.keys.flatMap (memberPieces reports catalog) ++ [.text "\x7d\n"]

/-! ### Expressions -/

lemma placeholder_fill (code : String) (m : Materials) : ∃ w after,
    (placeholder code).run m = (.identifier (String.ofList w.placeholder), after) ∧
      (Piece.code code ()).fill.run m = (.code code w, after) :=
  ⟨_, _, rfl, rfl⟩

lemma cacheKey_fill (m : Materials) : ∃ w after,
    cacheKey.run m = (cacheKeyMark ++ w.text, after) ∧ (Piece.key ()).fill.run m = (.key w, after) :=
  ⟨_, _, rfl, rfl⟩

lemma fillAll_cons_run {p : Piece Unit} {q : Piece Word} {m after : Materials}
    (h : p.fill.run m = (q, after)) (ps : List (Piece Unit)) :
    (fillAll (p :: ps)).run m = (q :: ((fillAll ps).run after).1, ((fillAll ps).run after).2) := by
  rw [fillAll, StateT.run_bind, h]
  rfl

lemma fillAll_text_run (s : String) (ps : List (Piece Unit)) (m : Materials) :
    (fillAll (.text s :: ps)).run m = (.text s :: ((fillAll ps).run m).1, ((fillAll ps).run m).2) :=
  rfl

lemma fillAll_nil_run (m : Materials) : (fillAll []).run m = ([], m) :=
  rfl

/-- What is built for a shorthand format, with the words that are chosen for it. -/
lemma formatExpression_shorthand_fill (context name code : String) (m : Materials) :
    ∃ w k between after, (Piece.code code ()).fill.run m = (.code code w, between) ∧
      (Piece.key ()).fill.run between = (.key k, after) ∧
      (formatExpression context name (some (.shorthand code))).run m =
        (.call (.member (.member .this formatterProperty) formatMethod)
          [.identifier name, .arrow [⟨formatterName, none⟩] (.identifier (String.ofList w.placeholder)),
            .literal (cacheKeyMark ++ k.text), .literal s!"parameter '{name}' in {context}"], after) := by
  obtain ⟨w, between, hbuild, hfill⟩ := placeholder_fill code m
  obtain ⟨k, after, hbuild', hfill'⟩ := cacheKey_fill between
  refine ⟨w, k, between, after, hfill, hfill', ?_⟩
  rw [formatExpression, StateT.run_bind, hbuild]
  show StateT.run (cacheKey >>= _) between = _
  rw [StateT.run_bind, hbuild']
  rfl

lemma prints_formatExpression (context name : String) (format : Option Format) :
    Prints (formatExpression context name format) (formatPieces context name format) := by
  intro m
  have hvalue := oneLine_identifier name
  rcases format with _ | code | code
  · refine ⟨?_, rfl⟩
    show OneLine (.identifier name) (textOf Piece.printed [.text name])
    simpa [Piece.printed] using hvalue
  · obtain ⟨w, m₁, hbuild, hfill⟩ := placeholder_fill code m
    rw [formatExpression, StateT.run_bind, hbuild, formatPieces, fillAll_cons_run hfill]
    refine ⟨?_, rfl⟩
    have hcall := (oneLine_identifier (String.ofList w.placeholder)).call (.cons hvalue .nil)
    show OneLine (.call (.identifier (String.ofList w.placeholder)) [.identifier name])
      (textOf Piece.printed [.code code w, .text ("(" ++ name ++ ")")])
    simpa [Piece.printed] using hcall
  · obtain ⟨w, k, m₁, m₂, hfill, hfill', hrun⟩ := formatExpression_shorthand_fill context name code m
    have hcallee := (oneLine_this.member formatterProperty).member formatMethod
    have harrow := (oneLine_identifier (String.ofList w.placeholder)).arrow [⟨formatterName, none⟩]
    have hcall := hcallee.call (.cons hvalue (.cons harrow (.cons (oneLine_literal (cacheKeyMark ++ k.text))
      (.cons (oneLine_literal s!"parameter '{name}' in {context}") .nil))))
    have hfilled : (fillAll (formatPieces context name (some (.shorthand code)))).run m =
        ([.text ("this" ++ "." ++ formatterProperty ++ "." ++ formatMethod ++ "(" ++ name ++ ", " ++ "(" ++
            formatterName ++ ") => "), .code code w, .text ", ", .key k,
          .text (", " ++ quoteString s!"parameter '{name}' in {context}" ++ ")")], m₂) := by
      rw [formatPieces, fillAll_text_run, fillAll_cons_run hfill,
        fillAll_text_run, fillAll_cons_run hfill', fillAll_text_run]
      rfl
    rw [hrun, hfilled]
    refine ⟨?_, rfl⟩
    simpa [-String.reduceAppend, Piece.printed, String.append_assoc, String.intercalate_cons_cons,
      paramsText, typeAnnotation] using hcall

/-- The pieces of a template literal. -/
lemma templateParts_pieces (context : String) (content : List Part) (run : String) (m : Materials) :
    ∃ (first : String) (items : List (Expr × String × String)),
      (templateParts context content).run m =
        ((first, items.map fun item => (item.1, item.2.2)),
          ((fillAll (contentPieces context run content)).run m).2) ∧
      (∀ item ∈ items, OneLine item.1 item.2.1) ∧
      templateSource (run ++ first) (items.map (·.2)) =
        textOf Piece.printed ((fillAll (contentPieces context run content)).run m).1 := by
  induction content generalizing run m with
  | nil =>
    refine ⟨"", [], rfl, by simp, ?_⟩
    rw [String.append_empty, contentPieces, fillAll_text_run]
    show templateSource run [] = textOf Piece.printed [.text (escapeTemplate run)]
    simp [templateSource, Piece.printed]
  | cons part content ih =>
    cases part with
    | text s =>
      obtain ⟨first, items, hrun, hlines, htext⟩ := ih (run ++ s) m
      refine ⟨s ++ first, items, ?_, hlines, by rw [← String.append_assoc]; exact htext⟩
      rw [templateParts, StateT.run_bind, hrun]
      rfl
    | parameter name format =>
      obtain ⟨hline, hafter⟩ := prints_formatExpression context name format m
      obtain ⟨first, items, hrun, hlines, htext⟩ := ih "" ((formatExpression context name format).run m).2
      refine ⟨"", (((formatExpression context name format).run m).1,
        textOf Piece.printed ((fillAll (formatPieces context name format)).run m).1, first) :: items,
        ?_, List.forall_mem_cons.2 ⟨hline, hlines⟩, ?_⟩
      · rw [templateParts, StateT.run_bind]
        show StateT.run (templateParts context content >>= _) _ = _
        rw [StateT.run_bind, hrun, contentPieces, List.cons_append,
          fillAll_text_run, fillAll_append_run, fillAll_text_run,
          ← hafter]
        rfl
      · rw [contentPieces, List.cons_append, fillAll_text_run, fillAll_append_run,
          fillAll_text_run, ← hafter]
        rw [String.empty_append] at htext
        simp only [textOf_cons, textOf_append, ← htext, Piece.printed, String.append_empty,
          List.map_cons, templateSource, String.append_assoc]
    | reference name => exact ih run m

lemma prints_messageTemplate (context : String) (content : List Part) :
    Prints (messageTemplate context content)
      (.text "`" :: contentPieces context "" content ++ [.text "`"]) := by
  intro m
  obtain ⟨first, items, hrun, hlines, htext⟩ := templateParts_pieces context content "" m
  have hbuilt : (messageTemplate context content).run m =
      (.template (first :: items.map (·.2.2)) (items.map (·.1)),
        ((fillAll (contentPieces context "" content)).run m).2) := by
    rw [messageTemplate, StateT.run_bind, hrun]
    show (Expr.template (first :: (items.map _).map _) ((items.map _).map _), _) = _
    rw [List.map_map, List.map_map]
    rfl
  have hline := oneLine_template items first hlines
  rw [hbuilt, List.cons_append, fillAll_text_run, fillAll_append_run,
    fillAll_text_run]
  refine ⟨?_, rfl⟩
  rw [String.empty_append] at htext
  rw [htext] at hline
  simpa only [fillAll_nil_run, textOf_cons, textOf_append, textOf_nil, Piece.printed,
    String.append_empty, ← String.append_assoc] using hline

lemma prints_memberValue (catalog : Catalog) (key : String) :
    Prints (memberValue catalog key) (valuePieces catalog key) := by
  unfold memberValue valuePieces
  cases catalog.exposed? key with
  | some message => exact prints_messageTemplate _ message.content
  | none =>
    intro m
    refine ⟨?_, rfl⟩
    have hline := oneLine_template [] ("<" ++ key ++ ">") (by simp)
    rw [fillAll_text_run, fillAll_nil_run, textOf_cons, textOf_nil, String.append_empty]
    exact hline

/-! ### Members -/

lemma indentLine_of_ne {line : String} (h : line ≠ "") : Block.indentLine line = "  " ++ line := by
  unfold Block.indentLine
  rw [if_neg]
  simpa using h

lemma messageMembers_pieces (reports : Reports) (catalog : Catalog) (keys : List String)
    (m : Materials) :
    ∃ lines, LaysAll (Printer.members ((messageMembers reports catalog keys).run m).1) lines ∧
      linesText (lines.map Block.indentLine) =
        textOf Piece.printed ((fillAll (keys.flatMap (memberPieces reports catalog))).run m).1 ∧
      ((messageMembers reports catalog keys).run m).2 =
        ((fillAll (keys.flatMap (memberPieces reports catalog))).run m).2 := by
  induction keys generalizing m with
  | nil => exact ⟨[], laysAll_nil_members, rfl, rfl⟩
  | cons key keys ih =>
    obtain ⟨hline, hafter⟩ := prints_memberValue catalog key m
    obtain ⟨lines, hlays, htext, hend⟩ := ih ((memberValue catalog key).run m).2
    have hreturn := hline.lays_returning.statements laysAll_nil_statements
    have hmember := hreturn.lays_method (by simp) (MethodHead.ofMessage key (memberParams reports key))
    have hrun : (messageMembers reports catalog (key :: keys)).run m =
        (.method (MethodHead.ofMessage key (memberParams reports key))
            [.returning (some ((memberValue catalog key).run m).1)] ::
          ((messageMembers reports catalog keys).run ((memberValue catalog key).run m).2).1,
          ((messageMembers reports catalog keys).run ((memberValue catalog key).run m).2).2) := by
      rw [messageMembers, StateT.run_bind]
      rfl
    have hpieces : (fillAll (memberPieces reports catalog key)).run m =
        (.text ("  public " ++ headText (.ofMessage key (memberParams reports key)) ++
            " \x7b\n    return ") ::
          ((fillAll (valuePieces catalog key)).run m).1 ++ [.text ";\n  \x7d\n"],
          ((memberValue catalog key).run m).2) := by
      rw [memberPieces, List.cons_append, fillAll_text_run, fillAll_append_run, fillAll_text_run,
        fillAll_nil_run, hafter]
      rfl
    rw [hrun]
    refine ⟨_, hmember.members hlays, ?_, ?_⟩
    · rw [List.flatMap_cons, fillAll_append_run, hpieces, List.map_append, linesText_append, htext,
        textOf_append]
      refine congrArg (· ++ _) ?_
      simp only [List.append_nil, List.map_cons, List.map_nil, List.cons_append, List.nil_append,
        linesText_cons, linesText_nil]
      simp (disch := simp) only [indentLine_of_ne]
      refine String.toList_inj.1 ?_
      simp [Piece.printed]
    · rw [hend, List.flatMap_cons, fillAll_append_run, hpieces]

/-- The members that every locale class begins with. -/
lemma laysAll_fixedMembers {members : List Member} {lines : List String}
    (h : LaysAll (Printer.members members) lines) :
    LaysAll (Printer.members (fixedMembers ++ members))
      (["private fmt: Fmt;", "public constructor(fmt: Fmt) \x7b", "  this.fmt = fmt;", "\x7d"] ++
        lines) := by
  have hset := (oneLine_this.member formatterProperty).assignment (oneLine_identifier formatterProperty)
  have hbody := hset.lays_expression.statements laysAll_nil_statements
  have hconstructor := hbody.lays_method (by simp)
    (.ofConstructor [⟨formatterProperty, some (.named formatterClass)⟩])
  exact (lays_property formatterProperty (some (.named formatterClass))).members (hconstructor.members h)

/-! ### Modules -/

/-- The code at the top of a module. -/
def headerStatements (catalog : Catalog) : Build (List Script.Statement) :=
  match catalog.header with
  | some code => do pure [Script.Statement.expression (← placeholder code)]
  | none => pure []

lemma headerStatements_pieces (catalog : Catalog) (m : Materials) :
    ∃ lines, LaysAll (Printer.statements ((headerStatements catalog).run m).1) lines ∧
      linesText lines = textOf Piece.printed ((fillAll (headerPieces catalog)).run m).1 ∧
      ((headerStatements catalog).run m).2 = ((fillAll (headerPieces catalog)).run m).2 := by
  unfold headerStatements headerPieces
  cases catalog.header with
  | none => exact ⟨[], laysAll_nil_statements, rfl, rfl⟩
  | some code =>
    obtain ⟨w, after, hbuild, hfill⟩ := placeholder_fill code m
    have hline := (oneLine_identifier (String.ofList w.placeholder)).lays_expression
    rw [StateT.run_bind, hbuild, fillAll_cons_run hfill, fillAll_text_run, fillAll_nil_run]
    refine ⟨_, hline.statements laysAll_nil_statements, ?_, rfl⟩
    simp [Piece.printed, String.append_assoc]

/-- **A module is printed as its pieces**, with the words that are chosen on the way. -/
theorem localeProgram_pieces (o : TargetOptions) (reports : Reports) (catalog : Catalog)
    (source : String) (m : Materials) :
    ((localeProgram o reports catalog source).run m).1.text =
        textOf Piece.printed ((fillAll (modulePieces o reports catalog source)).run m).1 ∧
      ((localeProgram o reports catalog source).run m).2 =
        ((fillAll (modulePieces o reports catalog source)).run m).2 := by
  obtain ⟨header, hheader, hheaderText, hheaderEnd⟩ := headerStatements_pieces catalog m
  obtain ⟨members, hmembers, hmembersText, hmembersEnd⟩ := messageMembers_pieces reports catalog
    reports.coverage.keys.keys ((headerStatements catalog).run m).2
  have hrun : (localeProgram o reports catalog source).run m = (
      { comments := [noticeText o.tool [source]]
        body := [.importNames runtimeModule [formatterClass], .importNames "." [o.interfaceName]] ++
          ((headerStatements catalog).run m).1 ++
          [.exportDefaultOf (.ofClass (o.className catalog.id) [o.interfaceName] (fixedMembers ++
            ((messageMembers reports catalog reports.coverage.keys.keys).run
              ((headerStatements catalog).run m).2).1))] },
      ((messageMembers reports catalog reports.coverage.keys.keys).run
        ((headerStatements catalog).run m).2).2) := by
    unfold localeProgram headerStatements
    cases catalog.header <;> rfl
  have hclass := (laysAll_fixedMembers hmembers).lays_class (by simp) (o.className catalog.id)
    o.interfaceName
  have himports := (lays_importFrom [.named formatterClass none] runtimeModule).statements
    ((lays_importFrom [.named o.interfaceName none] ".").statements laysAll_nil_statements)
  have hbody := (himports.append hheader).append (hclass.exportDefaultOf.statements laysAll_nil_statements)
  rw [hrun, modulePieces, fillAll_append_run, fillAll_append_run, fillAll_text_run, fillAll_text_run,
    ← hheaderEnd, ← hmembersEnd, fillAll_text_run, fillAll_nil_run]
  refine ⟨?_, rfl⟩
  rw [text_eq_linesText hbody]
  simp only [textOf_append, textOf_cons, textOf_nil, ← hheaderText, ← hmembersText, linesText_append,
    linesText_cons, linesText_nil, List.map_cons, List.map_nil, List.flatMap_cons,
    List.flatMap_nil, List.append_nil, List.cons_append, List.nil_append, Piece.printed]
  simp (disch := simp) only [indentLine_of_ne]
  refine String.toList_inj.1 ?_
  simp

end Generate

end Polyglot
