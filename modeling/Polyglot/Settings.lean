import Polyglot.Json
import Polyglot.Problem
import Polyglot.Text.Identifier
import Polyglot.Text.Wildcard

/-!
# Settings

What a project can choose: where its message files are, what is generated and where, how things
are called, and which files are left aside. A settings file is a JSON object; every field may be
missing and then has its default.

* `Settings.ofJson?`, `Settings.toJson`: settings as JSON.
* `Settings.parse?`: settings from the text of a file.
* `Settings.patterns`, `Settings.validate`: what JSON alone does not guarantee.
-/

namespace Polyglot

/-- Where each kind of file is generated. A kind without a directory is not generated. -/
structure OutputSettings where
  modules : Option String := some "./src/locales"
  declarations : Option String := none
deriving DecidableEq, Repr

structure Settings where
  /-- The directory of the message files. -/
  catalogs : String := "./translations"
  output : OutputSettings := {}
  interfaceName : String := "Locale"
  /-- The name of the exported locale selector. -/
  selectorName : String := "elz"
  /-- Whether the reference locale is imported with the index module. -/
  staticReference : Bool := true
  /-- Patterns for the names of files to leave aside. -/
  ignores : List String := []
deriving DecidableEq, Repr

namespace OutputSettings

/-- The names of the fields, in order. -/
def fieldNames : List String := ["ts", "dts"]

def ofJson? (json : Json) : Option OutputSettings := do
  let record ← json.record? fieldNames
  let default : OutputSettings := {}
  return {
    modules := ← Json.readField record "ts" Json.optionalText? default.modules
    declarations := ← Json.readField record "dts" Json.optionalText? default.declarations }

def toJson (o : OutputSettings) : Json :=
  .object [("ts", .ofOptionalText o.modules), ("dts", .ofOptionalText o.declarations)]

end OutputSettings

namespace Settings

/-- The names of the fields, in order. -/
def fieldNames : List String :=
  ["translations", "output", "interfaceName", "elzInstanceName", "staticDefault", "ignores"]

def ofJson? (json : Json) : Option Settings := do
  let record ← json.record? fieldNames
  let default : Settings := {}
  return {
    catalogs := ← Json.readField record "translations" Json.text? default.catalogs
    output := ← Json.readField record "output" OutputSettings.ofJson? default.output
    interfaceName := ← Json.readField record "interfaceName" Json.text? default.interfaceName
    selectorName := ← Json.readField record "elzInstanceName" Json.text? default.selectorName
    staticReference := ← Json.readField record "staticDefault" Json.bool? default.staticReference
    ignores := ← Json.readField record "ignores" Json.texts? default.ignores }

def toJson (s : Settings) : Json :=
  .object [
    ("translations", .ofText s.catalogs),
    ("output", s.output.toJson),
    ("interfaceName", .ofText s.interfaceName),
    ("elzInstanceName", .ofText s.selectorName),
    ("staticDefault", .bool s.staticReference),
    ("ignores", .array (s.ignores.map .ofText))]

/-- The settings that a text holds. -/
def parse? (text : String) : Option Settings :=
  (Json.parse? text).bind ofJson?

/-- The text of a settings file. -/
def write (s : Settings) : String :=
  s.toJson.pretty

/-! ## validity -/

/-- A name that is to appear in generated code is no identifier. -/
def badName (field name : String) : Problem where
  kind := .config
  message := s!"'{field}' must be a valid identifier, found \"{name}\""

/-- A pattern cannot be read. -/
def badPattern (text : String) (e : WildcardError) : Problem where
  kind := .config
  message := s!"Invalid glob pattern in 'ignores': \"{text}\""
  details := [e.message]

/-- Read one pattern. -/
def pattern (text : String) : Except Problem Wildcard :=
  match Wildcard.parse text with
  | .ok w => .ok w
  | .error e => .error (badPattern text e)

/-- The patterns for the files to leave aside, or what is wrong with the first bad one. -/
def patterns (s : Settings) : Except Problem (List Wildcard) :=
  s.ignores.mapM pattern

/-- The patterns of settings that can be used, or what is wrong with the first that is wrong. -/
def validate (s : Settings) : Except Problem (List Wildcard) :=
  if !isIdentifier s.interfaceName then .error (badName "interfaceName" s.interfaceName)
  else if !isIdentifier s.selectorName then .error (badName "elzInstanceName" s.selectorName)
  else s.patterns

end Settings

end Polyglot
