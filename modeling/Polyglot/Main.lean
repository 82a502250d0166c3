import Polyglot.Cli.Command

/-!
# The program

The command line on a real file system. What a command can look at is read into a `Disk` first, the
command runs on it, and then the files are changed as the command has changed them.
-/

namespace Polyglot.Main

/-- The path of a place. -/
def placeText (place : Trail) : String :=
  "/" ++ "/".intercalate (place.map FileName.shown)

/-- What stands at a place, if it can be read. -/
def look (place : Trail) : IO Standing := do
  try
    let path ← IO.FS.realPath (placeText place)
    if ← path.isDir then return .directory
    return .file (.ofBytes (← IO.FS.readBinFile path))
  catch _ => return .nothing

/-- Copy a place, unless it has been copied before. -/
def copy (d : Disk) (place : Trail) : IO Disk := do
  if d.standing place != .nothing then return d
  return d.put place (← look place)

/-- The places on the way along some segments. -/
def placesAlong (place : Trail) : List RawText → List Trail
  | [] => []
  | s :: ss =>
    let next := (Disk.step? place s).getD place
    next :: placesAlong next ss

/-- Copy what is on the way of a path, and what is directly inside the directory that it names. -/
def survey (d : Disk) (p : Path) : IO Disk := do
  let places := placesAlong (d.origin p) (slashSegments p.bytes)
  let d ← places.foldlM copy d
  match places.getLast? with
  | none => return d
  | some place =>
    try
      let inside ← (← IO.FS.realPath (placeText place)).readDir
      let names := inside.toList.filterMap (fun entry => FileName.ofBytes? (.ofText entry.fileName))
      names.foldlM (fun d name => copy d (place ++ [name])) d
    catch _ => return d

/-- Copy the paths that tell which project a directory belongs to. -/
def surveyProject (d : Disk) (given : Overrides) : IO Disk :=
  (given.root.getD currentDirectory).ancestors.foldlM (fun d directory => do
    let d ← survey d (directory.join (.ofText Settings.fileName))
    survey d (directory.join (.ofText Settings.repositoryMark))) d

/-- Copy the directories that a project reads and writes. -/
def surveyDirectories (d : Disk) (given : Overrides) : IO Disk :=
  match Project.load d given with
  | .error _ => return d
  | .ok p =>
    let o := p.targetOptions given
    ([p.catalogsDir] ++ o.modulesDir.toList ++ o.declarationsDir.toList).foldlM survey d

/-- Copy all that a command can look at. -/
def surveyFor (d : Disk) : Cli.Invocation → IO Disk
  | .check o | .release o => do surveyDirectories (← surveyProject d o.overrides) o.overrides
  | .init => survey d (.ofText Settings.fileName)
  | _ => return d

/-- Make what is new at a place. -/
def renew (before : Disk) (place : Trail) (what : Standing) : IO Unit := do
  if before.standing place = what then return
  match what with
  | .directory => IO.FS.createDirAll (placeText place)
  | .file (.text value) => IO.FS.writeFile (placeText place) value
  | _ => return

/-- Change the files as a command has changed them. Directories were put before what is in them. -/
def apply (before after : Disk) : IO Unit := do
  for (place, what) in after.entries.reverse do
    renew before place what
  for (place, _) in before.entries do
    if after.standing place = .nothing then IO.FS.removeFile (placeText place)

/-- Four bytes make a word. -/
def wordsOf : List UInt8 → List Word
  | a :: b :: c :: d :: bytes =>
    .ofNat (((a.toNat * 256 + b.toNat) * 256 + c.toNat) * 256 + d.toNat) :: wordsOf bytes
  | _ => []

/-- How many random words are at hand. -/
def supplySize : USize := 65536

def randomSupply : IO Supply := do
  return ⟨wordsOf (← IO.getRandomBytes (4 * supplySize)).toList⟩

/-- Colours are on in a terminal, unless the environment forbids them. -/
def wantsColors : IO Bool := do
  let forbidden := (← IO.getEnv "NO_COLOR").isSome
  return !forbidden && (← (← IO.getStdout).isTty)

/-- Do what a command line asks for. -/
def perform (i : Cli.Invocation) : IO UInt32 := do
  let current := Trail.ofText (← IO.currentDir).toString
  let above := (List.range (current.length + 1)).map current.take
  let start ← above.foldlM copy { (∅ : Disk) with current }
  let before ← surveyFor start i
  let outcome := Cli.run i (← wantsColors) before (← randomSupply)
  apply before outcome.disk
  IO.print outcome.stdout
  IO.eprint outcome.stderr
  return outcome.status.code.toUInt32

end Polyglot.Main

def main (args : List String) : IO UInt32 :=
  match Polyglot.Cli.Invocation.parse args with
  | .ok i => Polyglot.Main.perform i
  | .error e => do
    IO.eprintln ("error: " ++ e.message)
    return Polyglot.Cli.ExitStatus.error.code.toUInt32
