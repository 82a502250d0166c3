import Polyglot.Catalog.Build
import Polyglot.Failure
import Polyglot.Text.Lines
import Polyglot.Text.Wildcard

/-!
# Loading catalogs

Every message file of a directory becomes a catalog, or is left out: because of a problem that is
fatal, or because its name is no text, so that it is named after no locale. No file has a bearing on
another one.

* `messageFiles`: the message files of a directory, by name.
* `MessageFile.load`: one file.
* `Loading.run`: all files of a directory.
-/

namespace Polyglot

/-- A catalog and the file that it comes from. -/
structure SourcedCatalog where
  catalog : Catalog
  source : Path

/-- A problem with a file. -/
structure FileProblem where
  path : Path
  problem : Problem
  /-- The line that the problem is in, if it has a position. -/
  line : Option String
deriving DecidableEq, Repr

/-- What became of a message file. -/
structure MessageFile where
  path : Path
  /-- The text of the file, if it could be read. -/
  content : Option String
  problems : Problems
  /-- The catalog, unless the file has to be left out. -/
  catalog : Option Catalog

/-- What became of all files. -/
structure Loading where
  catalogs : List SourcedCatalog
  problems : List FileProblem
  /-- The files that were left out. -/
  excluded : List Path

/-- What the names of message files end in, after a dot. -/
def messageExtension : String := "tm"

/-- Whether an entry of a directory is a message file that is not left aside. -/
def isMessageFile (ignores : List Wildcard) (name : FileName) : Standing → Bool
  | .file _ =>
    name.toPath.extension?.bind RawText.text? == some messageExtension &&
      !ignores.any (·.accepts name.shown)
  | _ => false

/-- The message files directly inside a directory, by name. -/
def messageFiles (d : Disk) (dir : Path) (ignores : List Wildcard) :
    Except Failure (List Path) :=
  if !d.pathExists dir then .error (.noSuchDirectory dir)
  else if !d.isDirectory dir then .error (.noDirectory dir)
  else
    match d.listing dir with
    | .error e => .error (.listDirectory dir e)
    | .ok entries =>
      .ok ((entries.filter (fun e => isMessageFile ignores e.1 e.2)).map
        (fun e => dir.join e.1.toPath))

/-- The locale that a file is named after, if the name is text. -/
def Path.localeId? (p : Path) : Option String :=
  p.stem?.bind RawText.text?

namespace MessageFile

/-- The file cannot be read. -/
def unreadable (e : DiskError) : Problem where
  kind := .files
  message := "Failed to read file: " ++ e.message

/-- Read the text of a file as the catalog of the locale that the file is named after. Without a locale
no catalog is built. -/
def ofText (path : Path) (content : String) : MessageFile :=
  match Document.read content with
  | .error e =>
    { path
      content := some content
      problems := Problems.push [] (SyntaxError.toProblem e)
      catalog := none }
  | .ok draft =>
    match path.localeId? with
    | none => { path, content := some content, problems := draft.problems, catalog := none }
    | some id =>
      let (catalog, problems) := Catalog.ofDraft id draft
      { path
        content := some content
        problems
        catalog := if problems.hasFatal then none else some catalog }

def load (d : Disk) (path : Path) : MessageFile :=
  match d.readText path with
  | .error e => { path, content := none, problems := [unreadable e], catalog := none }
  | .ok content => ofText path content

/-- The line of the file that a problem is in. -/
def lineOf (f : MessageFile) (p : Problem) : Option String :=
  p.position.bind (fun position =>
    f.content.bind (fun content => (textLines content)[position.line - 1]?))

def fileProblems (f : MessageFile) : List FileProblem :=
  f.problems.map (fun p => ⟨f.path, p, f.lineOf p⟩)

end MessageFile

namespace Loading

def ofFiles (files : List MessageFile) : Loading where
  catalogs := files.filterMap (fun f => f.catalog.map (⟨·, f.path⟩))
  problems := files.flatMap MessageFile.fileProblems
  excluded := (files.filter (·.catalog.isNone)).map (·.path)

/-- Load the message files of a directory. -/
def run (d : Disk) (dir : Path) (ignores : List Wildcard) : Except Failure Loading :=
  (messageFiles d dir ignores).map (fun paths => ofFiles (paths.map (MessageFile.load d)))

/-- How many message files there are. -/
def filesFound (l : Loading) : Nat :=
  l.catalogs.length + l.excluded.length

end Loading

end Polyglot
