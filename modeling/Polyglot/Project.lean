import Polyglot.Generate.Targets
import Polyglot.Settings.Discovery

/-!
# Projects

A project is what a run works on: a root directory with its settings, and what the user of the run
has asked for instead of them. Paths in the settings are relative to the root; paths that the user
gives are taken as they are.

* `Project.load`: the project that a directory belongs to.
* `Project.targetOptions`: what is generated, and where.
* `Project.displayPath`: how a path is shown.
-/

namespace Polyglot

/-- What the user of a run asks for, ahead of the settings. -/
structure Overrides where
  /-- Where to look for the project. -/
  root : Option Path := none
  /-- The directory of the message files. -/
  catalogsDir : Option Path := none
  modulesDir : Option Path := none
  declarationsDir : Option Path := none
deriving DecidableEq, Repr

structure Project where
  root : Path
  settings : Settings
  /-- Whether the settings come from a file. -/
  hasSettingsFile : Bool
  /-- The directory of the message files. -/
  catalogsDir : Path
  /-- Patterns for the names of files to leave aside. -/
  ignores : List Wildcard

/-- Name and version of this tool, for the notice in generated files. -/
def toolName : String := "elzii-tools"

def toolVersion : String := "0.4.0"

/-- The directory that a run starts from. -/
def currentDirectory : Path := .ofText "."

/-- A path of the settings, seen from the root. A dot at its front is left out, and put there if the
root is the current directory. -/
def resolveIn (root path : Path) : Path :=
  if path.isAbsolute then path
  else
    let relative := (path.relativeTo? currentDirectory).getD path
    if root.components.all (· == .current) then currentDirectory.join relative
    else root.join relative

namespace Project

/-- The project that a directory belongs to. -/
def load (d : Disk) (given : Overrides) : Except Failure Project :=
  (LoadedSettings.load d (given.root.getD currentDirectory)).map (fun loaded =>
    { root := loaded.base
      settings := loaded.settings
      hasSettingsFile := loaded.fromFile
      catalogsDir := given.catalogsDir.getD (resolveIn loaded.base (.ofText loaded.settings.catalogs))
      ignores := loaded.ignores })

/-- The directory that the user asks for, or else the one in the settings. -/
def chooseDirectory (p : Project) (asked : Option Path) (setting : Option String) : Option Path :=
  asked <|> setting.map (fun dir => resolveIn p.root (.ofText dir))

/-- What is generated, and where. -/
def targetOptions (p : Project) (given : Overrides) : Generate.TargetOptions where
  modulesDir := p.chooseDirectory given.modulesDir p.settings.output.modules
  declarationsDir := p.chooseDirectory given.declarationsDir p.settings.output.declarations
  interfaceName := p.settings.interfaceName
  selectorName := p.settings.selectorName
  staticReference := p.settings.staticReference
  tool := toolName ++ " " ++ toolVersion

/-- A path as it is shown to the user: from the root, if it lies there, and without dots. -/
def displayPath (p : Project) (path : Path) : String :=
  let relative := (path.relativeTo? p.root).getD path
  "/".intercalate ((relative.components.filter (· != .current)).map Component.shown)

end Project

end Polyglot
