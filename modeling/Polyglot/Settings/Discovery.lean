import Polyglot.Failure
import Polyglot.Settings

/-!
# Finding the settings of a project

The settings file is looked for in a directory and then in the ones above it, as far as the path of
the directory tells. The top of a repository ends the search.

* `Settings.find?`: the path of the settings file.
* `LoadedSettings.load`: the settings that hold for a directory.
-/

namespace Polyglot

structure LoadedSettings where
  settings : Settings
  /-- The patterns of the settings. -/
  ignores : List Wildcard
  /-- Whether there is a settings file. -/
  fromFile : Bool
  /-- What the paths in the settings are relative to. -/
  base : Path

namespace Settings

/-- The name of settings files. -/
def fileName : String := ".elziirc.json"

/-- What marks the top of a repository. -/
def repositoryMark : String := ".git"

/-- The first settings file in these directories, unless a repository ends before it. -/
def findIn (d : Disk) : List Path → Option Path
  | [] => none
  | directory :: above =>
    if d.pathExists (directory.join (.ofText fileName)) then
      some (directory.join (.ofText fileName))
    else if d.pathExists (directory.join (.ofText repositoryMark)) then none
    else findIn d above

/-- The settings file that holds for a directory. -/
def find? (d : Disk) (start : Path) : Option Path :=
  findIn d start.ancestors

/-- Read a settings file. -/
def read (d : Disk) (path : Path) : Except Failure (Settings × List Wildcard) :=
  match d.readText path with
  | .error e => .error (.readSettings path e)
  | .ok text =>
    match Settings.parse? text with
    | none => .error (.parseSettings path)
    | some settings =>
      match settings.validate with
      | .error p => .error (.problem p)
      | .ok ignores => .ok (settings, ignores)

end Settings

namespace LoadedSettings

/-- The settings that hold for a directory, which are the defaults if no file is found. -/
def load (d : Disk) (start : Path) : Except Failure LoadedSettings :=
  match Settings.find? d start with
  | none => .ok { settings := {}, ignores := [], fromFile := false, base := start }
  | some path =>
    (Settings.read d path).map (fun (settings, ignores) =>
      { settings, ignores, fromFile := true, base := path.parent?.getD start })

end LoadedSettings

end Polyglot
