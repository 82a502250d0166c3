import Polyglot.Text.Raw

/-!
# Paths

A path is the bytes that name a file, kept as they were given. Its components are what stands between
the slashes: empty stretches and dots say nothing, except that a dot at the very beginning of a
relative path counts.

* `FileName`: the name of a file or a directory.
* `Path.pieces`: the components, each with the stretch of bytes that it takes.
* `Path.join`, `Path.parent?`, `Path.relativeTo?`: bytes in, bytes out; nothing is normalised.
* `Path.ancestors`: a path, its parent, the parent of that, and so on.
* `Path.fileName?`, `Path.stem?`, `Path.extension?`.
-/

namespace Polyglot

/-- A path as bytes. -/
structure Path where
  bytes : RawText
deriving DecidableEq, Repr

/-- A component of a path. -/
inductive Component where
  | root
  | current
  | parent
  | normal (name : RawText)
deriving DecidableEq, Repr

/-- A component, and where its bytes begin and end. -/
structure PathPiece where
  component : Component
  start : Nat
  stop : Nat
deriving DecidableEq, Repr

/-- What separates the components of a path. -/
def slash : UInt8 := 0x2F

def dot : UInt8 := 0x2E

namespace Component

def bytes : Component → RawText
  | root => [slash]
  | current => [dot]
  | parent => [dot, dot]
  | normal name => name

def shown (c : Component) : String :=
  c.bytes.shown

end Component

/-! ## names -/

/-- The most bytes that a name can have. -/
def nameLimit : Nat := 255

/-- Whether a file can have this name. -/
def isFileName (bs : RawText) : Bool :=
  bs != [] && bs != [dot] && bs != [dot, dot] && !bs.contains slash && !bs.contains 0 &&
    bs.length ≤ nameLimit

/-- The name of a file or a directory. -/
structure FileName where
  bytes : RawText
  valid : isFileName bytes = true
deriving DecidableEq, Repr

namespace FileName

/-- The name that bytes are. -/
def ofBytes? (bs : RawText) : Option FileName :=
  if h : isFileName bs = true then some ⟨bs, h⟩ else none

/-- A name as it is shown. -/
def shown (name : FileName) : String :=
  name.bytes.shown

/-- The path of a name alone. -/
def toPath (name : FileName) : Path :=
  ⟨name.bytes⟩

instance : LT FileName := ⟨fun a b => a.bytes < b.bytes⟩

instance : LE FileName := ⟨fun a b => a.bytes ≤ b.bytes⟩

instance (a b : FileName) : Decidable (a < b) :=
  inferInstanceAs (Decidable (a.bytes < b.bytes))

instance (a b : FileName) : Decidable (a ≤ b) :=
  inferInstanceAs (Decidable (a.bytes ≤ b.bytes))

end FileName

/-! ## components -/

/-- What stands between the slashes of bytes. -/
def slashSegments : RawText → List RawText
  | [] => [[]]
  | b :: bs =>
    match slashSegments bs with
    | [] => [[b]]
    | s :: ss => if b = slash then [] :: s :: ss else (b :: s) :: ss

namespace Path

/-- The path that a text is. -/
def ofText (s : String) : Path :=
  ⟨.ofText s⟩

/-- A path as it is shown. -/
def shown (p : Path) : String :=
  p.bytes.shown

/-- The components of segments that begin at `offset`. A dot counts only if `first` is set. -/
def piecesFrom : (first : Bool) → (offset : Nat) → List RawText → List PathPiece
  | _, _, [] => []
  | first, offset, s :: ss =>
    let rest := piecesFrom false (offset + s.length + 1) ss
    if s = [] then rest
    else if s = [dot] then
      if first then ⟨.current, offset, offset + 1⟩ :: rest else rest
    else if s = [dot, dot] then ⟨.parent, offset, offset + 2⟩ :: rest
    else ⟨.normal s, offset, offset + s.length⟩ :: rest

def isAbsolute (p : Path) : Bool :=
  p.bytes.head? == some slash

/-- The components of a path and their places in its bytes. -/
def pieces (p : Path) : List PathPiece :=
  let segments := slashSegments p.bytes
  if p.isAbsolute then ⟨.root, 0, 1⟩ :: piecesFrom false 0 segments
  else piecesFrom true 0 segments

def components (p : Path) : List Component :=
  p.pieces.map (·.component)

/-- The stretch of bytes from `start` to `stop`. -/
def slice (p : Path) (start stop : Nat) : Path :=
  ⟨(p.bytes.take stop).drop start⟩

/-- `q` seen from `p`: an absolute path stands for itself, another is written after `p`, with a
slash between them if there is none. -/
def join (p q : Path) : Path :=
  if q.isAbsolute || p.bytes.isEmpty then q
  else if p.bytes.getLast? = some slash then ⟨p.bytes ++ q.bytes⟩
  else ⟨p.bytes ++ slash :: q.bytes⟩

/-- The paths that are left when components are taken off the end one by one; the components are
given from the last to the first. Nothing is above the root, and the empty path is above every
relative one. -/
def parentsFrom (p : Path) : List PathPiece → List Path
  | [] => []
  | [piece] => if piece.component = .root then [] else [⟨[]⟩]
  | _ :: next :: pieces => p.slice 0 next.stop :: parentsFrom p (next :: pieces)

/-- A path and all paths above it, from the nearest. -/
def ancestors (p : Path) : List Path :=
  p :: parentsFrom p p.pieces.reverse

/-- The path without its last component. -/
def parent? (p : Path) : Option Path :=
  (parentsFrom p p.pieces.reverse).head?

/-- What is left of the pieces after these components. -/
def dropComponents : List PathPiece → List Component → Option (List PathPiece)
  | pieces, [] => some pieces
  | [], _ :: _ => none
  | piece :: pieces, c :: cs => if piece.component = c then dropComponents pieces cs else none

/-- The path as it is seen from `base`, if it lies there. -/
def relativeTo? (p base : Path) : Option Path :=
  (dropComponents p.pieces base.components).map (fun pieces =>
    match pieces.head?, pieces.getLast? with
    | some first, some last => p.slice first.start last.stop
    | _, _ => ⟨[]⟩)

/-! ## file names -/

/-- The name of the file that a path names, if it ends in a name. -/
def fileName? (p : Path) : Option RawText :=
  match p.pieces.getLast? with
  | some ⟨.normal name, _, _⟩ => some name
  | _ => none

/-- A name cut at its last dot. A dot at the beginning of the name does not count. -/
def cutExtension (name : RawText) : RawText × Option RawText :=
  let after := (name.reverse.takeWhile (· != dot)).reverse
  let before := name.take (name.length - after.length - 1)
  if after.length = name.length || before = [] then (name, none) else (before, some after)

/-- The file name without its extension. -/
def stem? (p : Path) : Option RawText :=
  p.fileName?.map (fun name => (cutExtension name).1)

def extension? (p : Path) : Option RawText :=
  p.fileName?.bind (fun name => (cutExtension name).2)

end Path

end Polyglot
