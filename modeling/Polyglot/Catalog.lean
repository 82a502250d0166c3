import Polyglot.Directive
import Polyglot.KeyMap
import Polyglot.Message

/-!
# Catalogs

The messages of one locale, by key, with the header and the directives of the file that they come
from. Only exposed messages are generated and compared between locales.
-/

namespace Polyglot

structure Catalog where
  /-- The name of the locale. -/
  id : String
  header : Option String := none
  directives : List Directive := []
  messages : KeyMap Message := ∅

namespace Catalog

/-- Whether the catalog is marked as the reference for the others. -/
def isReference (c : Catalog) : Bool :=
  c.directives.contains .reference

/-- The messages that can be called, in key order. -/
def exposed (c : Catalog) : List (String × Message) :=
  c.messages.entries.filter (fun e => e.2.isExposed)

/-- The message of a key, if it can be called. -/
def exposed? (c : Catalog) (key : String) : Option Message :=
  (c.messages.find? key).filter Message.isExposed

/-- The keys that can be called, in order. -/
def exposedKeys (c : Catalog) : List String :=
  c.exposed.map (·.1)

end Catalog

end Polyglot
