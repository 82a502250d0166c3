import Polyglot.Cli.Style
import Polyglot.Failure
import Polyglot.Generate.Targets
import Polyglot.Issue
import Polyglot.Text.Width

/-!
# Reports

What a command has found and done, and how that is told: every issue with the line that it is
about, a summary, and the files that were written.

* `CommandResult`: what is told, with `exitStatus`.
* `CommandResult.report`: the lines for standard output.
* `CommandResult.warnings`, `failureReport`: the lines for standard error.
-/

namespace Polyglot.Cli

open Generate (EmittedFile)

inductive ExitStatus where
  /-- All is well; there may be warnings. -/
  | success
  /-- There is an error among the issues. -/
  | failure
  /-- The command could not do its work. -/
  | error
deriving DecidableEq, Repr

/-- What a release has generated. -/
structure Generation where
  targets : List OutputKind
  emitted : List EmittedFile
  /-- Whether the checks allowed it. -/
  allowed : Bool

structure CommandResult where
  /-- What was generated, if that was asked for. -/
  generation : Option Generation
  /-- In their order. -/
  issues : List Issue
  filesChecked : Nat

namespace ExitStatus

def code : ExitStatus → UInt8
  | success => 0
  | failure => 1
  | error => 2

end ExitStatus

namespace CommandResult

/-- The result of a command that has found these issues. -/
def finish (generation : Option Generation) (issues : List Issue) (filesChecked : Nat) :
    CommandResult where
  generation
  issues := Issue.sort issues
  filesChecked

def errorCount (r : CommandResult) : Nat :=
  r.issues.countP (fun i => i.severity == .error)

def warningCount (r : CommandResult) : Nat :=
  r.issues.length - r.errorCount

/-- How many issues say that a file could not be read. -/
def parseErrorCount (r : CommandResult) : Nat :=
  r.issues.countP (fun i => i.rule == .parseError)

/-- Whether the checks stood in the way of generation. -/
def isBlocked (r : CommandResult) : Bool :=
  r.generation.any (fun g => !g.allowed)

def exitStatus (r : CommandResult) : ExitStatus :=
  if 0 < r.errorCount || r.isBlocked then .failure else .success

end CommandResult

/-! ## marks and margins -/

def successMark : String := "✓"

def failureMark : String := "✘"

/-- Blanks in front of a text, up to a width. -/
def padLeft (width : Nat) (text : String) : String :=
  String.ofList (List.replicate (width - text.length) ' ') ++ text

/-- The word for a count of things. -/
def plural (count : Nat) (one many : String) : String :=
  if count = 1 then one else many

/-- The width of the margin that all line numbers fit into. -/
def marginWidth (issues : List Issue) : Nat :=
  let lines := issues.filterMap (fun i => i.location.position?.map (·.line))
  match lines.max? with
  | some line => (toString line).length
  | none => 1

section

variable (colors : Bool)

/-! ## issues -/

def severityStyle : Severity → Style
  | .error => .strongRed
  | .warning => .strongYellow

def caretStyle : Severity → Style
  | .error => .red
  | .warning => .yellow

/-- A line of a file, with its number, and a caret below the column. `measure` tells how wide the
text in front of the caret is. -/
def sourceLines (measure : String → Nat) (margin : Nat) (severity : Severity) (position : Position)
    (line : String) : List String :=
  let bar := Style.blue.paint colors "|"
  let before := String.ofList (line.toList.take (position.column - 1))
  [padLeft margin "" ++ " " ++ bar,
    Style.blue.paint colors (padLeft margin (toString position.line)) ++ " " ++ bar ++ " " ++ line,
    padLeft margin "" ++ " " ++ bar ++ " " ++ padLeft (measure before) "" ++
      (caretStyle severity).paint colors "^"]

/-- Where an issue is. -/
def locationLines (margin : Nat) (severity : Severity) : Location → List String
  | .source path position line =>
    ("  " ++ Style.blue.paint colors "-->" ++ " " ++ path ++ ":" ++ position.label) ::
      (line.map (sourceLines colors displayWidth margin severity position)).getD []
  | .file path => ["  " ++ Style.blue.paint colors "-->" ++ " " ++ path]
  | .everywhere => []

/-- A remark below an issue. -/
def remarkLine (margin : Nat) (style : Style) (label text : String) : String :=
  padLeft margin "" ++ " " ++ Style.blue.paint colors "=" ++ " " ++ style.paint colors label ++
    " " ++ text

/-- An issue, with an empty line after it. -/
def issueLines (margin : Nat) (i : Issue) : List String :=
  [(severityStyle i.severity).paint colors i.severity.name ++ ": \"" ++ i.message ++ "\"  " ++
      Style.faintCyan.paint colors i.rule.name] ++
    locationLines colors margin i.severity i.location ++
    i.details.map (remarkLine colors margin .strong "note:") ++
    i.hint.toList.map (remarkLine colors margin .strongCyan "hint:") ++
    [""]

/-- How many issues there are. -/
def summaryLine (r : CommandResult) : String :=
  Style.red.paint colors failureMark ++ " " ++ toString r.issues.length ++ " problems (" ++
    toString r.errorCount ++ " " ++
      Style.red.paint colors (plural r.errorCount "error" "errors") ++ ", " ++
    toString r.warningCount ++ " " ++
      Style.yellow.paint colors (plural r.warningCount "warning" "warnings") ++ ")"

/-- All issues and the summary, or nothing. -/
def issuesReport (r : CommandResult) : List String :=
  if r.issues.isEmpty then []
  else r.issues.flatMap (issueLines colors (marginWidth r.issues)) ++ [summaryLine colors r]

/-! ## generated files -/

/-- Whether so few messages are missing from a file that a warning is enough: less than one in
twenty. -/
def isNearlyComplete (f : EmittedFile) : Bool :=
  20 * f.missing < max f.total 1

/-- A file that was written, and what it lacks. -/
def emittedLine (f : EmittedFile) : String :=
  let mark := Style.green.paint colors successMark ++ " " ++ f.name
  if f.missing = 0 then mark
  else
    let style := if isNearlyComplete f then Style.yellow else Style.red
    mark ++ " " ++ style.paint colors s!"[!] {f.missing} missing translation(s)"

/-- A mark and a text in one colour. -/
def markedLine (style : Style) (mark text : String) : String :=
  style.paint colors mark ++ " " ++ style.paint colors text

/-- What was generated. -/
def generationLines (g : Generation) : List String :=
  if g.allowed then
    let labels := ", ".intercalate (g.targets.map OutputKind.label)
    let count := g.emitted.length
    g.emitted.map (emittedLine colors) ++
      [markedLine colors .green successMark s!"Generated {count} file(s) ({labels})"]
  else [markedLine colors .red failureMark "Checks failed, no file was generated"]

/-- What a check without issues says. -/
def cleanLines (r : CommandResult) : List String :=
  if r.issues.isEmpty then
    let count := r.filesChecked
    let files := plural count "file" "files"
    [markedLine colors .green successMark
      s!"Checked {count} translation {files} - no issues found"]
  else []

namespace CommandResult

/-- What is told on standard output. -/
def report (r : CommandResult) : List String :=
  issuesReport colors r ++
    match r.generation with
    | none => cleanLines colors r
    | some g => generationLines colors g

/-- What is told on standard error. -/
def warnings (r : CommandResult) : List String :=
  if r.parseErrorCount = 0 then []
  else
    let count := toString r.parseErrorCount
    [Style.strongYellow.paint colors "warning:" ++ " " ++ count ++
      " file(s) could not be parsed and were left out"]

end CommandResult

/-! ## failures -/

/-- What is told about a problem that ended the command. -/
def problemLines (tool : String) (p : Problem) : List String :=
  p.details.map (fun detail => "  " ++ Style.blue.paint colors "=" ++ " " ++ detail) ++
    if p.kind = .internal then
      [Style.strong.paint colors "note:" ++ " this is a bug in " ++ tool ++ ", please report it"]
    else []

/-- What is told about a failure. -/
def failureReport (tool : String) (f : Failure) : List String :=
  (Style.strongRed.paint colors "Error:" ++ " " ++ f.message) ::
    match f with
    | .problem p => problemLines colors tool p
    | _ => []

end

end Polyglot.Cli
