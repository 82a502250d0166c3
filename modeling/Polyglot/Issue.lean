import Polyglot.Position
import Polyglot.Problem
import Polyglot.Text.Enumeration

/-!
# Issues

What a run has to tell about the message files: about one file, or about a message across locales.
An issue holds all that is needed to show it.

* `Issue`: the kinds of issue, with `severity` and `rule`.
* `Issue.location`, `Issue.message`, `Issue.hint`, `Issue.details`: how an issue is shown.
* `Issue.compare`, `Issue.sort`: files first, by path and position, then the rest by rule.
-/

namespace Polyglot

inductive Severity where
  | error
  | warning
deriving DecidableEq, Repr

/-- The rules that issues come from, in the order in which issues about no file are listed. -/
inductive Rule where
  | parseError
  | invalidMessage
  | parameterMismatch
  | duplicateReference
  | obsoleteKey
  | missingKey
  | localeCollision
deriving DecidableEq, Repr

/-- A file, perhaps a place in it, and the line that is found there. -/
structure Place where
  path : String
  position : Option Position := none
  line : Option String := none
deriving DecidableEq, Repr

inductive Issue where
  /-- A file with a fatal problem, which is left out. -/
  | parseError (place : Place) (error : String) (details : List String)
  /-- A message that is not as it should be; its file is used all the same. -/
  | invalidMessage (place : Place) (error : String)
  /-- A message takes different parameters in different locales. -/
  | parameterMismatch (key : String) (signatures : List String)
  /-- A second catalog claims to be the reference. -/
  | duplicateReference (locale kept : String)
  /-- The reference locale does not have this key. -/
  | obsoleteKey (key reference : String) (definedIn : List String)
  /-- Some locales do not have this key. -/
  | missingKey (key : String) (missingIn : List String)
  /-- A locale whose generated names are taken by an earlier one, which alone is kept. -/
  | localeCollision (path locale kept identifier : String)
deriving DecidableEq, Repr

/-- What an issue points at. -/
inductive Location where
  | source (path : String) (position : Position) (line : Option String)
  | file (path : String)
  | everywhere
deriving DecidableEq, Repr

namespace Severity

def name : Severity → String
  | error => "error"
  | warning => "warning"

end Severity

namespace Rule

def name : Rule → String
  | parseError => "parse-error"
  | invalidMessage => "invalid-message"
  | parameterMismatch => "parameter-mismatch"
  | duplicateReference => "duplicate-default"
  | obsoleteKey => "obsolete-translation"
  | missingKey => "missing-translation"
  | localeCollision => "locale-collision"

/-- The place of a rule in their order. -/
def rank : Rule → Nat
  | parseError => 0
  | invalidMessage => 1
  | parameterMismatch => 2
  | duplicateReference => 3
  | obsoleteKey => 4
  | missingKey => 5
  | localeCollision => 6

/-- What leaves a file out, or makes generation impossible, is an error. -/
def severity : Rule → Severity
  | parseError | parameterMismatch | localeCollision => .error
  | invalidMessage | duplicateReference | obsoleteKey | missingKey => .warning

end Rule

namespace Location

def ofPlace (p : Place) : Location :=
  match p.position with
  | some position => .source p.path position p.line
  | none => .file p.path

def path? : Location → Option String
  | source path _ _ => some path
  | file path => some path
  | everywhere => none

def position? : Location → Option Position
  | source _ position _ => some position
  | _ => none

end Location

namespace Issue

def rule : Issue → Rule
  | parseError .. => .parseError
  | invalidMessage .. => .invalidMessage
  | parameterMismatch .. => .parameterMismatch
  | duplicateReference .. => .duplicateReference
  | obsoleteKey .. => .obsoleteKey
  | missingKey .. => .missingKey
  | localeCollision .. => .localeCollision

def severity (i : Issue) : Severity :=
  i.rule.severity

/-- The issue that a problem with a file is. -/
def ofProblem (path : String) (p : Problem) (line : Option String) : Issue :=
  if p.isFatal then .parseError ⟨path, p.position, line⟩ p.message p.details
  else .invalidMessage ⟨path, p.position, line⟩ p.message

/-! ## how issues are shown -/

/-- The most locales that an enumeration lists. -/
def shownLocales : Nat := 4

def location : Issue → Location
  | parseError place _ _ => .ofPlace place
  | invalidMessage place _ => .ofPlace place
  | localeCollision path _ _ _ => .file path
  | _ => .everywhere

def message : Issue → String
  | parseError _ error _ => error
  | invalidMessage _ error => error
  | parameterMismatch key _ => s!"Different parameters found for message '{key}'"
  | duplicateReference locale _ => s!"Translation '{locale}' is also marked @default"
  | obsoleteKey key _ _ => key
  | missingKey key _ => key
  | localeCollision _ locale kept _ => s!"Locale '{locale}' generates the same names as '{kept}'"

/-- What to do about an issue. -/
def hint : Issue → Option String
  | parseError .. => some "this file is skipped until the error is fixed"
  | parameterMismatch .. => some "every locale must use the same parameters for a message"
  | localeCollision .. => some "rename one of the files; this one is skipped"
  | _ => none

/-- Further lines, shown below the message. -/
def details : Issue → List String
  | parseError _ _ details => details
  | invalidMessage .. => []
  | parameterMismatch _ signatures => signatures
  | duplicateReference _ kept => [s!"'{kept}' is used as the reference locale"]
  | obsoleteKey _ reference definedIn =>
    [s!"not in reference locale '{reference}', only found in " ++ enumerate definedIn shownLocales]
  | missingKey _ missingIn => ["missing in: " ++ ", ".intercalate missingIn]
  | localeCollision _ _ _ identifier => [s!"both become `{identifier}`"]

/-! ## the order of issues -/

/-- No position comes before every position. -/
def comparePositions : Option Position → Option Position → Ordering
  | none, none => .eq
  | none, some _ => .lt
  | some _, none => .gt
  | some p, some q => p.compare q

/-- Issues about files come first, by path, position and message; the others follow by rule and
message. -/
protected def compare (a b : Issue) : Ordering :=
  match a.location.path?, b.location.path? with
  | some p, some q =>
    ((compare p q).then (comparePositions a.location.position? b.location.position?)).then
      (compare a.message b.message)
  | some _, none => .lt
  | none, some _ => .gt
  | none, none => (compare a.rule.rank b.rule.rank).then (compare a.message b.message)

/-- Issues in their order; those that compare equal stay in the order in which they were found. -/
def sort (issues : List Issue) : List Issue :=
  issues.mergeSort (fun a b => (Issue.compare a b).isLE)

end Issue

end Polyglot
