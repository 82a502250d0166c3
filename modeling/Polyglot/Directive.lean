import Polyglot.Problem

/-!
# Directives

Instructions of the form `@name arguments` that a message file gives about itself.

* `Directive.build`: the directive with a name and arguments.
* `Directive.addTo`: a file gives each directive at most once.
-/

namespace Polyglot

inductive Directive where
  /-- The file holds the reference locale. It is written `@default` and takes no argument. -/
  | reference
deriving DecidableEq, Repr

/-- Why a directive was refused. -/
inductive DirectiveFault where
  | unknown (name : String)
  | arity (name : String) (expected found : Nat)
  | duplicate (directive : Directive)
deriving DecidableEq, Repr

namespace Directive

def name : Directive → String
  | reference => "default"

def arity : Directive → Nat
  | reference => 0

/-- The written form. -/
def written (d : Directive) : String :=
  "@" ++ d.name

def ofName? (name : String) : Option Directive :=
  if name = reference.name then some reference else none

/-- The directive with this name, given these arguments. -/
def build (name : String) (args : List String) : Except DirectiveFault Directive :=
  match ofName? name with
  | none => .error (.unknown name)
  | some d =>
    if args.length = d.arity then .ok d else .error (.arity name d.arity args.length)

/-- Add a directive to those of a file. -/
def addTo (ds : List Directive) (d : Directive) : Except DirectiveFault (List Directive) :=
  if ds.contains d then .error (.duplicate d) else .ok (ds ++ [d])

end Directive

namespace DirectiveFault

def message : DirectiveFault → String
  | unknown name => s!"Unknown directive @{name}."
  | arity name expected found =>
    s!"The @{name} directive expected {expected} argument(s) but {found} were found."
  | duplicate d => s!"Duplicate {d.written} directive found"

/-- A repeated directive leaves the file usable, the others do not. -/
def kind : DirectiveFault → ProblemKind
  | duplicate _ => .checks
  | _ => .parser

def toProblem (f : DirectiveFault) : Problem where
  kind := f.kind
  message := f.message

end DirectiveFault

end Polyglot
