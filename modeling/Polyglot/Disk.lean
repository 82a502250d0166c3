import Polyglot.Disk.Tree

/-!
# Files

What can be done on a disk with paths. Reading a path follows it name by name, and every name but the
last has to lead to a directory. Paths and names have a greatest length.

* `Disk.walk`: the place that segments lead to, and `Disk.resolve`, the place that a path names.
* `Disk.readText`, `Disk.writeText`, `Disk.makeDirectories`, `Disk.listing`, `Disk.removeFile`.
* `DiskError`: what can go wrong, with the words of the operating system.
-/

namespace Polyglot

inductive DiskError where
  | notFound
  | alreadyExists
  | notADirectory
  | isADirectory
  | nameTooLong
  | zeroCharacter
  | notText
deriving DecidableEq, Repr

namespace DiskError

def message : DiskError → String
  | notFound => "No such file or directory (os error 2)"
  | alreadyExists => "File exists (os error 17)"
  | notADirectory => "Not a directory (os error 20)"
  | isADirectory => "Is a directory (os error 21)"
  | nameTooLong => "File name too long (os error 36)"
  | zeroCharacter => "file name contained an unexpected NUL byte"
  | notText => "stream did not contain valid UTF-8"

end DiskError

namespace Disk

/-! ## following paths -/

/-- The most bytes that a path can have. -/
def pathLimit : Nat := 4095

/-- The place that a segment leads to from a directory, unless it is too long for a name. -/
def step? (place : Trail) (s : RawText) : Option Trail :=
  if s = [] || s = [dot] then some place
  else if s = [dot, dot] then some place.dropLast
  else (FileName.ofBytes? s).map (place ++ [·])

/-- The place that segments lead to from another one; nothing need be there. -/
def walk (d : Disk) : (place : Trail) → (segments : List RawText) → Except DiskError Trail
  | place, [] => .ok place
  | place, s :: ss =>
    match d.standing place with
    | .nothing => .error .notFound
    | .file _ => .error .notADirectory
    | .directory =>
      match step? place s with
      | none => .error .nameTooLong
      | some next => d.walk next ss

/-- The segments of a path, if it can be followed at all. A zero, which would end the path, is refused
before all else. -/
def segments (p : Path) : Except DiskError (List RawText) :=
  if p.bytes.contains 0 then .error .zeroCharacter
  else if p.bytes.isEmpty then .error .notFound
  else if pathLimit < p.bytes.length then .error .nameTooLong
  else .ok (slashSegments p.bytes)

/-- Where a path starts. -/
def origin (d : Disk) (p : Path) : Trail :=
  if p.isAbsolute then [] else d.current

/-- The place that a path names; nothing need be there. -/
def resolve (d : Disk) (p : Path) : Except DiskError Trail :=
  match segments p with
  | .error e => .error e
  | .ok segments => d.walk (d.origin p) segments

/-- Segments without the empty ones at their end. -/
def trimEnd (segments : List RawText) : List RawText :=
  (segments.reverse.dropWhile (· == [])).reverse

/-- The last segment, if it is a name with a slash after it. -/
def slashedName? (segments : List RawText) : Option RawText :=
  if segments.getLast? = some [] then
    (trimEnd segments).getLast?.filter (fun s => s != [dot] && s != [dot, dot])
  else none

/-- The place of a file that is to be written. A slash after its name asks for a directory, whatever
stands there, once the way to it has been followed. -/
def resolveFile (d : Disk) (p : Path) : Except DiskError Trail :=
  match segments p with
  | .error e => .error e
  | .ok segments =>
    match slashedName? segments with
    | none => d.walk (d.origin p) segments
    | some _ =>
      match d.walk (d.origin p) ((trimEnd segments).dropLast ++ [[]]) with
      | .error e => .error e
      | .ok _ => .error .isADirectory

/-- The place of a directory that is to be made. Slashes after its name make no difference. -/
def resolveDirectory (d : Disk) (p : Path) : Except DiskError Trail :=
  match segments p with
  | .error e => .error e
  | .ok segments => d.walk (d.origin p) (trimEnd segments)

/-- What is seen where a path leads. -/
def look (d : Disk) (p : Path) : Except DiskError Standing :=
  (d.resolve p).map d.standing

def pathExists (d : Disk) (p : Path) : Bool :=
  match d.look p with
  | .ok .nothing | .error _ => false
  | .ok _ => true

def isDirectory (d : Disk) (p : Path) : Bool :=
  match d.look p with
  | .ok .directory => true
  | _ => false

/-! ## files and directories -/

def readText (d : Disk) (p : Path) : Except DiskError String :=
  match d.look p with
  | .error e => .error e
  | .ok .nothing => .error .notFound
  | .ok .directory => .error .isADirectory
  | .ok (.file (.binary _)) => .error .notText
  | .ok (.file (.text value)) => .ok value

/-- Write a file. Its directory has to be there. -/
def writeText (d : Disk) (p : Path) (value : String) : Except DiskError Disk :=
  match d.resolveFile p with
  | .error e => .error e
  | .ok place =>
    match d.standing place with
    | .directory => .error .isADirectory
    | _ => .ok (d.put place (.file (.text value)))

/-- Make one directory, in a directory that is there. -/
def makeDirectory (d : Disk) (p : Path) : Except DiskError Disk :=
  match d.resolveDirectory p with
  | .error e => .error e
  | .ok place =>
    match d.standing place with
    | .nothing => .ok (d.put place .directory)
    | _ => .error .alreadyExists

/-- Make a directory unless it is there. -/
def ensureDirectory (d : Disk) (p : Path) : Except DiskError Disk :=
  match d.makeDirectory p with
  | .ok d => .ok d
  | .error e => if d.isDirectory p then .ok d else .error e

/-- Make the first of these directories, and before it those after it as far as they lack. What was
made stays if there is a failure later. -/
def makeChain (d : Disk) : List Path → Except DiskError Unit × Disk
  | [] => (.error .notFound, d)
  | p :: ps =>
    if p.bytes.isEmpty then (.ok (), d)
    else
      match d.ensureDirectory p with
      | .ok d => (.ok (), d)
      | .error .notFound =>
        match d.makeChain ps with
        | (.error e, d) => (.error e, d)
        | (.ok (), d) =>
          match d.ensureDirectory p with
          | .ok d => (.ok (), d)
          | .error e => (.error e, d)
      | .error e => (.error e, d)

/-- Make a directory and the directories above it, as far as they lack. -/
def makeDirectories (d : Disk) (p : Path) : Except DiskError Unit × Disk :=
  d.makeChain p.ancestors

/-- What is directly inside a directory, by name. A file has nothing inside. -/
def listing (d : Disk) (p : Path) : Except DiskError (List (FileName × Standing)) :=
  match d.resolve p with
  | .error e => .error e
  | .ok place =>
    match d.standing place with
    | .nothing => .error .notFound
    | .file _ => .ok []
    | .directory => .ok (d.children place)

def removeFile (d : Disk) (p : Path) : Except DiskError Disk :=
  match d.resolve p with
  | .error e => .error e
  | .ok place =>
    match d.standing place with
    | .nothing => .error .notFound
    | .directory => .error .isADirectory
    | .file _ => .ok (d.put place .nothing)

end Disk

end Polyglot
