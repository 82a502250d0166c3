import Polyglot.Failure

/-!
# Directories for generated files

Generated files of one kind go into one directory. What lies directly in it and is named like a
file of that kind belongs to the generator; nothing else is ever touched. What is done on the disk
stays done if there is a failure later, so that every step gives back a disk.

* `OutputKind.owns`: the names that belong to a kind.
* `OutputDirectory.create`, `OutputDirectory.write`, `OutputDirectory.cleanUp`.
-/

namespace Polyglot

inductive OutputKind where
  | modules
  | declarations
deriving DecidableEq, Repr

namespace OutputKind

/-- What the names of generated files end in. -/
def ending : OutputKind → String
  | modules => ".ts"
  | declarations => ".d.ts"

/-- The word for a kind in reports. -/
def label : OutputKind → String
  | modules => "TS"
  | declarations => "DTS"

/-- Whether a name ends in the ending of a kind. -/
def hasEnding (k : OutputKind) (name : String) : Bool :=
  k.ending.toList.isSuffixOf name.toList

/-- The file names that belong to a kind. The ending of a module is also the end of that of a
declaration file, which is no module. -/
def owns : OutputKind → String → Bool
  | modules, name => modules.hasEnding name && !declarations.hasEnding name
  | declarations, name => declarations.hasEnding name

end OutputKind

structure OutputDirectory where
  path : Path
  kind : OutputKind
deriving DecidableEq, Repr

namespace OutputDirectory

/-- Make the directory, and those above it, unless it is there. -/
def create (o : OutputDirectory) (d : Disk) : Except Failure Unit × Disk :=
  let (result, d) := d.makeDirectories o.path
  (result.mapError (.createDirectory o.path), d)

/-- The path of a file in the directory. -/
def filePath (o : OutputDirectory) (name : String) : Path :=
  o.path.join (.ofText name)

def write (o : OutputDirectory) (d : Disk) (name content : String) : Except Failure Unit × Disk :=
  match d.writeText (o.filePath name) content with
  | .ok d => (.ok (), d)
  | .error e => (.error (.writeFile (o.filePath name) e), d)

/-- The files that the directory owns and that are not to be kept. What counts is how their names are
shown. -/
def stale (o : OutputDirectory) (keep : List String) (inside : List (FileName × Standing)) :
    List FileName :=
  inside.filterMap (fun e =>
    match e.2 with
    | .file _ => if o.kind.owns e.1.shown && !keep.contains e.1.shown then some e.1 else none
    | _ => none)

/-- Remove files one by one. -/
def removeAll (o : OutputDirectory) : Disk → List FileName → Except Failure Unit × Disk
  | d, [] => (.ok (), d)
  | d, name :: names =>
    match d.removeFile (o.path.join name.toPath) with
    | .ok d => o.removeAll d names
    | .error e => (.error (.removeFile (o.path.join name.toPath) e), d)

/-- Remove the files that the directory owns, except those to keep, and tell their names. -/
def cleanUp (o : OutputDirectory) (d : Disk) (keep : List String) :
    Except Failure (List String) × Disk :=
  match d.listing o.path with
  | .error e => (.error (.listDirectory o.path e), d)
  | .ok inside =>
    let names := o.stale keep inside
    let (result, d) := o.removeAll d names
    (result.map (fun _ => names.map FileName.shown), d)

end OutputDirectory

end Polyglot
