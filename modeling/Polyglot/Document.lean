import Polyglot.Directive
import Polyglot.Message

/-!
# Message files

The content of one message file: a header of code, directives, and message definitions in file
order.

* `Document`: what a file says.
* `SyntaxError`: a fault that ends the reading of a file.
* `Slip`: a fault that leaves the structure intact; reading goes on and all slips are kept.
-/

namespace Polyglot

/-- A message as it is defined in a file, with its references still in place. -/
structure Definition where
  key : String
  visibility : Visibility
  content : List Part
  parameters : ParameterSet
  /-- Where the definition begins: at its key, or at the parenthesis before a hidden key. -/
  position : Position
deriving DecidableEq, Repr

structure Document where
  /-- Code that is copied to the top of the generated module. -/
  header : Option String := none
  directives : List Directive := []
  definitions : List Definition := []
deriving DecidableEq, Repr

/-- A fault that ends the reading of a file. -/
inductive SyntaxError where
  | unexpected (c : Char)
  | unterminatedHeader
  | secondHeader
  | afterHeader (c : Char)
  | noDirectiveName
  | noHiddenKey
  | noEquals (key : String)
  | noText
  | unterminatedText
  | afterMessage (c : Char)
  | noReferenceName
  | openReference (name : String)
  | noParameterName
  | inParameter (c : Char) (name : String)
  | unterminatedFormat (name : String)
  | emptyFormat (name : String)
deriving DecidableEq, Repr

/-- A fault after which reading goes on. -/
inductive Slip where
  | unknownEscape (c : Char)
  | unmatchedBrace
  | reservedParameter (name : String)
  | directive (fault : DirectiveFault)
deriving DecidableEq, Repr

/-- The characters that a backslash may stand before, and what they then mean. -/
def escapes : List (Char × Char) :=
  [('\\', '\\'), ('n', '\n'), ('t', '\t'), ('r', '\r'), ('\'', '\''), ('"', '"')]

/-- The meaning of a character after a backslash. -/
def unescape (c : Char) : Option Char :=
  (escapes.find? (fun e => e.1 == c)).map (·.2)

namespace SyntaxError

def message : SyntaxError → String
  | unexpected c => s!"Unexpected character '{c}'"
  | unterminatedHeader => "Unterminated header block"
  | secondHeader => "Only one header block is allowed per file"
  | afterHeader c => s!"Unexpected character '{c}' after header block"
  | noDirectiveName => "Expected a directive name after '@'"
  | noHiddenKey => "Expected a private message key like '(key)'"
  | noEquals key => s!"Expected '=' after message key '{key}'"
  | noText => "Expected a quoted message text"
  | unterminatedText => "Unterminated message text"
  | afterMessage c => s!"Unexpected character '{c}' after message"
  | noReferenceName => "Expected a message name after '\x7b@'"
  | openReference name => "Expected '\x7d' after '\x7b@" ++ name ++ "'"
  | noParameterName => "Expected a parameter name after '\x7b'"
  | inParameter c name => s!"Unexpected character '{c}' in parameter '{name}'"
  | unterminatedFormat name => s!"Unterminated format for parameter '{name}'"
  | emptyFormat name => s!"Empty format for parameter '{name}'"

def toProblem (e : At SyntaxError) : Problem where
  kind := .parser
  message := e.value.message
  position := some e.position

end SyntaxError

namespace Slip

def message : Slip → String
  | unknownEscape c => s!"Unknown escape sequence '\\{c}'"
  | unmatchedBrace => "Unmatched '\x7d' in message text (use '\x7d\x7d' for a literal brace)"
  | reservedParameter name => s!"Parameter name '{name}' is a reserved word"
  | directive fault => fault.message

/-- The escapes that would have been understood. -/
def knownEscapes : String :=
  "known escapes: " ++ " ".intercalate (escapes.map (fun e => "\\" ++ e.1.toString))

def details : Slip → List String
  | unknownEscape _ => [knownEscapes]
  | _ => []

def kind : Slip → ProblemKind
  | directive fault => fault.kind
  | _ => .parser

def toProblem (s : At Slip) : Problem where
  kind := s.value.kind
  message := s.value.message
  details := s.value.details
  position := some s.position

end Slip

end Polyglot
