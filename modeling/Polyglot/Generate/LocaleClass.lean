import Polyglot.Catalog
import Polyglot.Check
import Polyglot.Generate.Insertion
import Polyglot.Script.Tree

/-!
# Locale classes

The class that is generated for a catalog, and the interface that all these classes implement. They
have one member for each generated key: a getter if the message has no parameters, else a method.

* `localeInterface`: the interface.
* `messageTemplate`: the template literal of a message.
* `localeClass`: the class.
* `noticeText`: the comment at the top of a generated file.
-/

namespace Polyglot.Generate

open Script

/-- The names that generated code takes from the run-time library. -/
def runtimeModule : String := "elzii"
def formatterClass : String := "Fmt"
def formatMethod : String := "format"
def selectorClass : String := "Elz"
def proxyMethod : String := "makeLocaleProxy"

/-- The property that holds the formatter. -/
def formatterProperty : String := "fmt"

/-- What cache keys begin with. -/
def cacheKeyMark : String := "fmt"

def noticeText (tool : String) (sources : List String) : String :=
  s!"Generated by {tool} from the following files:" ++ String.join (sources.map ("\n" ++ ·))

/-- The parameters of the member for a key. -/
def memberParams (reports : Reports) (key : String) : List Param :=
  match reports.agreement.find? key with
  | some signature => signature.parameters.map (fun p => ⟨p.name, some (.ofHint p.hint)⟩)
  | none => []

/-- The interface of all locale classes. -/
def localeInterface (name : String) (reports : Reports) : Declaration :=
  .ofInterface name
    (reports.coverage.keys.keys.map (fun key => .ofMessage key (memberParams reports key)))

/-- What is used up while a class is built: placeholders, cache keys and random words. -/
structure Materials where
  insertion : Insertion := {}
  cacheKeys : CacheKeys := []
  supply : Supply := {}

abbrev Build := StateM Materials

/-- The placeholder expression for some code. -/
def placeholder (code : String) : Build Expr := do
  let m ← get
  let (w, insertion, supply) := m.insertion.add m.supply code
  set { m with insertion, supply }
  return .identifier (String.ofList w.placeholder)

/-- A cache key. -/
def cacheKey : Build String := do
  let m ← get
  let (key, cacheKeys, supply) := m.cacheKeys.generate m.supply cacheKeyMark
  set { m with cacheKeys, supply }
  return key

/-- The expression that gives the text of a parameter. A shorthand format goes through the
formatter of the class, which keeps what it makes under a cache key. -/
def formatExpression (context name : String) : Option Format → Build Expr
  | none => return .identifier name
  | some (.explicit code) => return .call (← placeholder code) [.identifier name]
  | some (.shorthand code) => do
    let spec := Expr.arrow [⟨formatterName, none⟩] (← placeholder code)
    let key ← cacheKey
    return .call (.member (.member .this formatterProperty) formatMethod)
      [.identifier name, spec, .literal key, .literal s!"parameter '{name}' in {context}"]

/-- The text before the first parameter, and each parameter's expression with the text after it. -/
def templateParts (context : String) : List Part → Build (String × List (Expr × String))
  | [] => return ("", [])
  | .text s :: ps => do
    let (t, rest) ← templateParts context ps
    return (s ++ t, rest)
  | .parameter name format :: ps => do
    let e ← formatExpression context name format
    let (t, rest) ← templateParts context ps
    return ("", (e, t) :: rest)
  | .reference _ :: ps => templateParts context ps

/-- The template literal of a content. -/
def messageTemplate (context : String) (content : List Part) : Build Expr := do
  let (first, rest) ← templateParts context content
  return .template (first :: rest.map (·.2)) (rest.map (·.1))

/-- What stands for a message that a locale does not have. -/
def fallbackTemplate (key : String) : Expr :=
  .template ["<" ++ key ++ ">"] []

/-- The value of the member for a key: the message, or its fallback. -/
def memberValue (catalog : Catalog) (key : String) : Build Expr :=
  match catalog.exposed? key with
  | some m => messageTemplate s!"{key}, {catalog.id}" m.content
  | none => return fallbackTemplate key

/-- The members for these keys, in order. -/
def messageMembers (reports : Reports) (catalog : Catalog) : List String → Build (List Member)
  | [] => return []
  | key :: keys => do
    let value ← memberValue catalog key
    let head := MethodHead.ofMessage key (memberParams reports key)
    return .method head [.returning (some value)] :: (← messageMembers reports catalog keys)

/-- The members that every locale class begins with: the formatter, and the constructor that sets
it. -/
def fixedMembers : List Member :=
  let formatterType := some (TypeNode.named formatterClass)
  [.property formatterProperty formatterType,
    .method (.ofConstructor [⟨formatterProperty, formatterType⟩])
      [.expression (.assignment (.member .this formatterProperty) (.identifier formatterProperty))]]

/-- The class of a catalog. -/
def localeClass (reports : Reports) (catalog : Catalog) (className interfaceName : String) :
    Build Declaration := do
  let members ← messageMembers reports catalog reports.coverage.keys.keys
  return .ofClass className [interfaceName] (fixedMembers ++ members)

end Polyglot.Generate
