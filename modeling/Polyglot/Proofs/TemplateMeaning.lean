import Polyglot.Generate.LocaleClass
import Polyglot.Script.Printer
import Polyglot.Proofs.TemplateReader
import Mathlib.Data.List.Forall2

/-!
# The template literal of a message means the message

What is printed for a message is read back as one template literal, with the texts of the message
and with the expressions of its parameters in their places.

* `OneLine e`: `e` is printed on one line, the same under every printer;
* `formatExpression_enclosed`: the expression of a parameter is printed on one line, and a
  substitution may hold that line;
* `expression_template`: how a template literal of such expressions is printed;
* `readTemplate_templateSource`: and what is read back from it;
* `readTemplate_messageTemplate`: the main statement.
-/

namespace Polyglot.Script

/-! ### Printing on one line -/

/-- The text that is printed for an expression. -/
def printed (printer : Printer) (e : Expr) : String :=
  ((Printer.expression e).run printer).1.text

/-- The expression is printed on one line, which no printer changes, and the printer stays as it
is. -/
def OneLine (e : Expr) (line : String) : Prop :=
  ∀ printer : Printer, (Printer.expression e).run printer = (.line line, printer)

theorem OneLine.printed {e : Expr} {line : String} (h : OneLine e line) (printer : Printer) :
    printed printer e = line := by
  show ((Printer.expression e).run printer).1.text = line
  rw [h printer]
  rfl

lemma glue_line (a b : String) : (Block.line a).glue (.line b) = .line (a ++ b) := rfl

lemma push_line (a b : String) : (Block.line a).push b = .line (a ++ b) := rfl

lemma oneLine_identifier (name : String) : OneLine (.identifier name) name := by
  intro printer
  rw [Printer.expression]
  rfl

lemma oneLine_literal (value : String) : OneLine (.literal value) (quoteString value) := by
  intro printer
  rw [Printer.expression]
  rfl

lemma oneLine_this : OneLine .this "this" := by
  intro printer
  rw [Printer.expression]
  rfl

lemma OneLine.member {object : Expr} {line : String} (h : OneLine object line) (property : String) :
    OneLine (.member object property) (line ++ ("." ++ property)) := by
  intro printer
  rw [Printer.expression, StateT.run_bind, h printer]
  rfl

lemma OneLine.arrow {body : Expr} {line : String} (h : OneLine body line) (params : List Param) :
    OneLine (.arrow params body) ("(" ++ paramsText params ++ ") => " ++ line) := by
  intro printer
  rw [Printer.expression, StateT.run_bind, h printer]
  rfl

lemma expressions_lines {es : List Expr} {lines : List String} (h : List.Forall₂ OneLine es lines)
    (printer : Printer) :
    (Printer.expressions es).run printer = (lines.map Block.line, printer) := by
  induction h with
  | nil =>
    rw [Printer.expressions]
    rfl
  | cons he _ ih =>
    rw [Printer.expressions, StateT.run_bind, he printer]
    show (StateT.run (Printer.expressions _ >>= _) printer) = _
    rw [StateT.run_bind, ih]
    rfl

/-- Lines with a comma between each and the next. -/
lemma commaSeparated_lines (line : String) (lines : List String) :
    Block.commaSeparated ((line :: lines).map Block.line) =
      .line (", ".intercalate (line :: lines)) := by
  induction lines generalizing line with
  | nil => simp [Block.commaSeparated]
  | cons next lines ih =>
    show ((Block.line line).push ", ").glue (Block.commaSeparated ((next :: lines).map Block.line)) = _
    rw [ih, push_line, glue_line, String.intercalate_cons_cons]

lemma OneLine.call {callee : Expr} {line : String} (h : OneLine callee line) {args : List Expr}
    {arg : String} {lines : List String} (hargs : List.Forall₂ OneLine args (arg :: lines)) :
    OneLine (.call callee args) (line ++ ("(" ++ ", ".intercalate (arg :: lines) ++ ")")) := by
  intro printer
  rw [Printer.expression, StateT.run_bind, h printer]
  show (StateT.run (Printer.expressions args >>= _) printer) = _
  rw [StateT.run_bind, expressions_lines hargs]
  show ((Block.line line).glue (argumentList ((arg :: lines).map Block.line)), printer) = _
  rw [argumentList, commaSeparated_lines]
  rfl

/-! ### Template literals -/

/-- The source of a template literal: the text before the first substitution, and each substitution's
code with the text after it. -/
def templateSource : String → List (String × String) → String
  | first, [] => escapeTemplate first
  | first, (code, text) :: rest =>
    escapeTemplate first ++ "$\x7b" ++ code ++ "\x7d" ++ templateSource text rest

lemma templateBody_oneLine (printer : Printer) (items : List (Expr × String × String)) (first : String)
    (h : ∀ item ∈ items, OneLine item.1 item.2.1) :
    (Printer.templateBody (first :: items.map (·.2.2)) (items.map (·.1))).run printer =
      (.line (templateSource first (items.map (·.2))), printer) := by
  induction items generalizing first with
  | nil =>
    show StateT.run (Printer.templateBody [first] []) printer = _
    have hjoin : String.join ([first].map escapeTemplate) = templateSource first [] := by
      simp [templateSource]
    rw [Printer.templateBody, hjoin]
    rfl
  | cons item items ih =>
    obtain ⟨e, code, text⟩ := item
    have he : OneLine e code := h _ (List.mem_cons_self ..)
    have hrest := ih text fun item hitem => h item (List.mem_cons_of_mem _ hitem)
    simp only [List.map_cons]
    rw [Printer.templateBody, StateT.run_bind, he printer]
    show (StateT.run (Printer.templateBody (text :: items.map (·.2.2)) (items.map (·.1)) >>= _)
      printer) = _
    rw [StateT.run_bind, hrest]
    rfl

/-- A template literal of expressions that are printed on one line is printed on one line. -/
lemma oneLine_template (items : List (Expr × String × String)) (first : String)
    (h : ∀ item ∈ items, OneLine item.1 item.2.1) :
    OneLine (.template (first :: items.map (·.2.2)) (items.map (·.1)))
      ("\x60" ++ templateSource first (items.map (·.2)) ++ "\x60") := by
  intro printer
  have hbody := templateBody_oneLine { printer with breaks := false } items first h
  have hunbroken : (Printer.unbroken (Printer.templateBody (first :: items.map (·.2.2))
      (items.map (·.1)))).run printer =
      (.line (templateSource first (items.map (·.2))), printer) := by
    simp only [Printer.unbroken, StateT.run_bind, StateT.run_get, StateT.run_set, pure_bind, hbody]
    rfl
  rw [Printer.expression, StateT.run_bind, hunbroken]
  rfl

/-- **How a template literal is printed**, if its expressions are printed on one line. -/
theorem expression_template (printer : Printer) (items : List (Expr × String × String))
    (first : String) (h : ∀ item ∈ items, OneLine item.1 item.2.1) :
    printed printer (.template (first :: items.map (·.2.2)) (items.map (·.1))) =
      "\x60" ++ templateSource first (items.map (·.2)) ++ "\x60" :=
  (oneLine_template items first h).printed printer

/-- **What is read back from a template literal.** -/
theorem readTemplate_templateSource (first : String) (items : List (String × String))
    (h : ∀ item ∈ items, Enclosed item.1.toList) :
    readTemplate ("\x60" ++ templateSource first items ++ "\x60").toList =
      some (⟨first.toList, items.map fun item => (item.1.toList, item.2.toList)⟩, []) := by
  have hrun : ∀ (items : List (String × String)) (first : String),
      (∀ item ∈ items, Enclosed item.1.toList) →
      templateText ((templateSource first items).toList ++ ['\x60']) =
        some (⟨first.toList, items.map fun item => (item.1.toList, item.2.toList)⟩, []) := by
    intro items
    induction items with
    | nil =>
      intro first _
      rw [templateSource, escapeTemplate, String.toList_ofList, templateText_escape _ (by decide),
        templateText_close]
      simp [TemplateReading.prepend]
    | cons item items ih =>
      obtain ⟨code, text⟩ := item
      intro first h
      have hcode : Enclosed code.toList := h _ (List.mem_cons_self ..)
      have hrest := ih text fun item hitem => h item (List.mem_cons_of_mem _ hitem)
      have hlist : (templateSource first ((code, text) :: items)).toList ++ ['\x60'] =
          escapeTemplateChars first.toList ++ ('$' :: '{' :: (code.toList ++
            '}' :: ((templateSource text items).toList ++ ['\x60']))) := by
        simp [templateSource, escapeTemplate]
      rw [hlist, templateText_escape _ (by simp), templateText_substitution (hcode.substitution _),
        hrest]
      simp [TemplateReading.prepend, TemplateReading.substitute]
  have hlist : ("\x60" ++ templateSource first items ++ "\x60").toList =
      '\x60' :: ((templateSource first items).toList ++ ['\x60']) := by
    simp
  rw [hlist, readTemplate, if_pos rfl]
  exact hrun items first h

end Polyglot.Script

namespace Polyglot.Generate

open Script

/-! ### The expression of a parameter -/

lemma isPlain_digit {n : Nat} (h : n < 16) : isPlain (Word.digit n) = true := by
  have hall : ∀ n : Fin 16, isPlain (Word.digit n) = true := by decide
  exact hall ⟨n, h⟩

lemma isPlain_digitsOf (count n : Nat) : (Word.digitsOf count n).all isPlain = true := by
  induction count generalizing n with
  | zero => rfl
  | succ count ih =>
    have hdigit := isPlain_digit (Nat.mod_lt n (show 16 > 0 by decide))
    simp [Word.digitsOf, ih, hdigit]

lemma enclosed_placeholder (w : Word) : Enclosed w.placeholder := by
  have hmark : Enclosed placeholderMark := enclosed_of_plain (by decide)
  exact hmark.append (enclosed_of_plain (isPlain_digitsOf 8 w.val))

lemma enclosed_identifier {name : String} (h : isIdentifier name = true) : Enclosed name.toList := by
  obtain ⟨_, _, _, _, hparts⟩ := exists_cons_of_isIdentifier h
  exact enclosed_of_plain (List.all_eq_true.2 fun c hc => isPlain_of_isIdentifierPart (hparts c hc))

lemma placeholder_run (code : String) (materials : Materials) :
    ∃ (w : Word) (after : Materials),
      (placeholder code).run materials = (.identifier (String.ofList w.placeholder), after) :=
  ⟨_, _, rfl⟩

lemma formatExpression_shorthand (context name code : String) (materials : Materials) :
    ∃ (w : Word) (key : String),
      ((formatExpression context name (some (.shorthand code))).run materials).1 =
        .call (.member (.member .this formatterProperty) formatMethod)
          [.identifier name, .arrow [⟨formatterName, none⟩] (.identifier (String.ofList w.placeholder)),
            .literal key, .literal s!"parameter '{name}' in {context}"] := by
  obtain ⟨w, after, hw⟩ := placeholder_run code materials
  refine ⟨w, (cacheKey.run after).1, ?_⟩
  rw [formatExpression, StateT.run_bind, hw]
  rfl

/-- **The expression of a parameter is printed on one line, and a substitution may hold it.** -/
theorem formatExpression_enclosed (context : String) {name : String} (hname : isIdentifier name = true)
    (format : Option Format) (materials : Materials) :
    ∃ line, OneLine ((formatExpression context name format).run materials).1 line ∧
      Enclosed line.toList := by
  have hid := enclosed_identifier hname
  have hvalue := oneLine_identifier name
  have hopen : Enclosed "(".toList := enclosed_of_plain (by decide)
  have hclose : Enclosed ")".toList := enclosed_of_plain (by decide)
  rcases format with _ | code | code
  · exact ⟨name, hvalue, hid⟩
  · -- the placeholder, applied to the parameter
    obtain ⟨w, after, hw⟩ := placeholder_run code materials
    rw [formatExpression, StateT.run_bind, hw]
    refine ⟨_, (oneLine_identifier (String.ofList w.placeholder)).call (.cons hvalue .nil), ?_⟩
    simp only [String.intercalate_singleton, String.toList_append, String.toList_ofList]
    exact (enclosed_placeholder w).append ((hopen.append hid).append hclose)
  · -- the formatter's method, applied to the parameter, an arrow function and two string literals
    obtain ⟨w, key, hw⟩ := formatExpression_shorthand context name code materials
    rw [hw]
    have hspec := (oneLine_identifier (String.ofList w.placeholder)).arrow [⟨formatterName, none⟩]
    have hcallee := (oneLine_this.member formatterProperty).member formatMethod
    refine ⟨_, hcallee.call (.cons hvalue (.cons hspec (.cons (oneLine_literal key)
      (.cons (oneLine_literal _) .nil)))), ?_⟩
    have hcomma : Enclosed ", ".toList := enclosed_of_plain (by decide)
    have hmethod : Enclosed ("this" ++ ("." ++ formatterProperty) ++ ("." ++ formatMethod)).toList :=
      enclosed_of_plain (by decide)
    have hhead : Enclosed ("(" ++ paramsText [⟨formatterName, none⟩] ++ ") => ").toList :=
      enclosed_of_plain (by decide)
    have harrow := hhead.append (enclosed_placeholder w)
    have hquoted (s : String) : Enclosed (quoteString s).toList := by
      rw [quoteString, String.toList_ofList]
      exact enclosed_quoteChars s.toList
    simp only [String.intercalate_cons_cons, String.intercalate_singleton, String.toList_append,
      String.toList_ofList] at hmethod harrow ⊢
    exact hmethod.append ((hopen.append (((hid.append hcomma).append
      ((harrow.append hcomma).append (((hquoted key).append hcomma).append (hquoted _)))))).append
        hclose)

/-! ### The parts of a content -/

/-- The text of a part that is text. -/
def text? : Part → Option String
  | .text s => some s
  | _ => none

/-- The name and the format of a part that is a parameter. -/
def parameter? : Part → Option (String × Option Format)
  | .parameter name format => some (name, format)
  | _ => none

/-- The texts before, between and after the parameters of a content. -/
def textRuns (content : List Part) : List String :=
  (content.splitOnP fun part => (parameter? part).isSome).map fun run =>
    String.join (run.filterMap text?)

/-- The expressions of the parameters of a content, in order. -/
def parameterExpressions (context : String) (content : List Part) : Build (List Expr) :=
  (content.filterMap parameter?).mapM fun (name, format) => formatExpression context name format

lemma textRuns_text (s : String) {first : String} {texts : List String} {content : List Part}
    (h : textRuns content = first :: texts) : textRuns (.text s :: content) = (s ++ first) :: texts := by
  unfold textRuns at h ⊢
  rw [List.splitOnP_cons_eq_if_modifyHead, if_neg (by simp [parameter?])]
  obtain ⟨run, runs, hruns, hrun, htexts⟩ := List.map_eq_cons_iff.1 h
  rw [hruns, List.modifyHead_cons, List.map_cons, htexts,
    List.filterMap_cons_some (show text? (.text s) = some s from rfl), String.join_cons, hrun]

lemma textRuns_parameter (name : String) (format : Option Format) (content : List Part) :
    textRuns (.parameter name format :: content) = "" :: textRuns content := by
  unfold textRuns
  rw [List.splitOnP_cons_eq_if_modifyHead, if_pos (by simp [parameter?])]
  rfl

lemma textRuns_reference (name : String) (content : List Part) :
    textRuns (.reference name :: content) = textRuns content := by
  unfold textRuns
  rw [List.splitOnP_cons_eq_if_modifyHead, if_neg (by simp [parameter?])]
  obtain ⟨run, runs, hruns⟩ := List.exists_cons_of_ne_nil
    (List.splitOnP_ne_nil (fun part => (parameter? part).isSome) content)
  rw [hruns]
  rfl

/-- What is built for a content: its runs of text, and the expressions of its parameters. -/
theorem templateParts_run (context : String) (content : List Part) (materials : Materials) :
    ∃ first rest after, (templateParts context content).run materials = ((first, rest), after) ∧
      textRuns content = first :: rest.map (·.2) ∧
      (parameterExpressions context content).run materials = (rest.map (·.1), after) := by
  induction content generalizing materials with
  | nil => exact ⟨"", [], materials, rfl, rfl, rfl⟩
  | cons part content ih =>
    cases part with
    | text s =>
      obtain ⟨first, rest, after, hparts, htexts, hexprs⟩ := ih materials
      refine ⟨s ++ first, rest, after, ?_, textRuns_text s htexts, hexprs⟩
      rw [templateParts, StateT.run_bind, hparts]
      rfl
    | parameter name format =>
      rcases hformat : (formatExpression context name format).run materials with ⟨e, between⟩
      obtain ⟨first, rest, after, hparts, htexts, hexprs⟩ := ih between
      refine ⟨"", (e, first) :: rest, after, ?_, ?_, ?_⟩
      · rw [templateParts, StateT.run_bind, hformat]
        show StateT.run (templateParts context content >>= _) between = _
        rw [StateT.run_bind, hparts]
        rfl
      · rw [textRuns_parameter, htexts]
        rfl
      · show StateT.run (((name, format) :: content.filterMap parameter?).mapM _) materials = _
        rw [List.mapM_cons, StateT.run_bind, hformat]
        show StateT.run (parameterExpressions context content >>= _) between = _
        rw [StateT.run_bind, hexprs]
        rfl
    | reference name =>
      rw [textRuns_reference]
      exact ih materials

lemma parameterExpressions_enclosed (context : String) (content : List Part) (materials : Materials)
    (hnames : ∀ name format, Part.parameter name format ∈ content → isIdentifier name = true) :
    ∀ e ∈ ((parameterExpressions context content).run materials).1,
      ∃ line, OneLine e line ∧ Enclosed line.toList := by
  have hall : ∀ p ∈ content.filterMap parameter?, isIdentifier p.1 = true := by
    intro p hp
    obtain ⟨part, hpart, hsome⟩ := List.mem_filterMap.1 hp
    cases part with
    | parameter name format =>
      cases hsome
      exact hnames name format hpart
    | text | reference => cases hsome
  unfold parameterExpressions
  generalize content.filterMap parameter? = ps at hall
  induction ps generalizing materials with
  | nil =>
    intro e he
    cases he
  | cons p ps ih =>
    intro e he
    rw [List.mapM_cons, StateT.run_bind] at he
    rcases List.mem_cons.1 he with rfl | he
    · exact formatExpression_enclosed context (hall p (List.mem_cons_self ..)) p.2 materials
    · exact ih _ (fun q hq => hall q (List.mem_cons_of_mem _ hq)) e he

/-- **The template literal of a message means the message.** What is printed for it is exactly one
template literal. Its substitutions are the expressions of the parameters, in order, and its texts
are the runs of text around the parameters. -/
theorem readTemplate_messageTemplate (printer : Printer) (context : String) (content : List Part)
    (materials : Materials)
    (hnames : ∀ name format, Part.parameter name format ∈ content → isIdentifier name = true) :
    ∃ (reading : TemplateReading) (exprs : List Expr),
      readTemplate (printed printer ((messageTemplate context content).run materials).1).toList =
        some (reading, []) ∧
      reading.texts = (textRuns content).map String.toList ∧
      reading.codes = exprs.map (fun e => (printed printer e).toList) ∧
      (parameterExpressions context content).run materials =
        (exprs, ((messageTemplate context content).run materials).2) := by
  obtain ⟨first, rest, after, hparts, htexts, hexprs⟩ := templateParts_run context content materials
  have hbuilt : (messageTemplate context content).run materials =
      (.template (first :: rest.map (·.2)) (rest.map (·.1)), after) := by
    rw [messageTemplate, StateT.run_bind, hparts]
    rfl
  have henclosed := parameterExpressions_enclosed context content materials hnames
  rw [hexprs] at henclosed
  let items := rest.map fun item => (item.1, printed printer item.1, item.2)
  have hitems : ∀ item ∈ items, OneLine item.1 item.2.1 ∧ Enclosed item.2.1.toList := by
    intro item hitem
    obtain ⟨⟨e, text⟩, hmem, rfl⟩ := List.mem_map.1 hitem
    obtain ⟨line, hline, hcode⟩ := henclosed e (List.mem_map.2 ⟨_, hmem, rfl⟩)
    obtain rfl := hline.printed printer
    exact ⟨hline, hcode⟩
  have hprinted := expression_template printer items first fun item hitem => (hitems item hitem).1
  have hread := readTemplate_templateSource first (items.map (·.2)) (by
    intro code hcode
    obtain ⟨item, hitem, rfl⟩ := List.mem_map.1 hcode
    exact (hitems item hitem).2)
  rw [← hprinted] at hread
  simp only [items, List.map_map] at hread
  refine ⟨⟨first.toList, rest.map fun item => ((printed printer item.1).toList, item.2.toList)⟩,
    rest.map (·.1), ?_, ?_, ?_, ?_⟩
  · rw [hbuilt]
    exact hread
  · rw [htexts]
    simp [TemplateReading.texts, Function.comp_def]
  · simp [TemplateReading.codes, Function.comp_def]
  · rw [hexprs, hbuilt]

/-- A content whose texts end and begin like the marks of a template literal. -/
def markedContent : List Part :=
  [.text "cost $", .parameter "price" (some (.shorthand "$f.money('\x7d')")), .text "\x7b\x60\\",
    .parameter "unit" (some (.explicit "upper")), .text "\x7d", .parameter "note" none, .text "\x00$"]

theorem readTemplate_messageTemplate_marked :
    (∀ name format, Part.parameter name format ∈ markedContent → isIdentifier name = true) ∧
    ∃ (reading : TemplateReading) (exprs : List Expr),
      readTemplate (printed {} ((messageTemplate "it's \x60a\x7d, $\x7ben" markedContent).run {}).1).toList =
        some (reading, []) ∧
      reading.texts = ["cost $", "\x7b\x60\\", "\x7d", "\x00$"].map String.toList ∧
      reading.codes = exprs.map (fun e => (printed {} e).toList) ∧
      (parameterExpressions "it's \x60a\x7d, $\x7ben" markedContent).run {} =
        (exprs, ((messageTemplate "it's \x60a\x7d, $\x7ben" markedContent).run {}).2) := by
  have hnames : ∀ name format, Part.parameter name format ∈ markedContent →
      isIdentifier name = true := by
    intro name format h
    simp only [markedContent, List.mem_cons, Part.parameter.injEq, reduceCtorEq, false_or,
      List.not_mem_nil, or_false] at h
    rcases h with ⟨rfl, _⟩ | ⟨rfl, _⟩ | ⟨rfl, _⟩ <;> decide
  have htexts : textRuns markedContent = ["cost $", "\x7b\x60\\", "\x7d", "\x00$"] := by decide
  have hread := readTemplate_messageTemplate {} "it's \x60a\x7d, $\x7ben" markedContent {} hnames
  rw [htexts] at hread
  exact ⟨hnames, hread⟩

end Polyglot.Generate
