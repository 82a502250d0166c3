import Polyglot.KeyMap
import Polyglot.Message
import Polyglot.Problem

/-!
# Resolving references

A message may refer to other messages of its catalog. To resolve it is to put the content of each
message it refers to, itself resolved, in the place of the reference. Every message is resolved
once and the result is kept. A message is marked while it is being resolved, so that a reference
that leads back to it is found and dropped.

* `Resolver`: messages by name, each waiting, in the making or done.
* `Resolver.resolve`: one message, resolved.
* `Resolver.resolveAll`: all of them, in name order.
-/

namespace Polyglot

/-- How far a message is. -/
inductive Stage where
  | waiting (content : List Part) (parameters : ParameterSet)
  | underway
  | done (message : Message)
deriving DecidableEq, Repr

/-- A registered message. -/
structure Entry where
  visibility : Visibility
  stage : Stage
deriving DecidableEq, Repr

/-- Why a reference was dropped. -/
inductive ReferenceFault where
  | unknown (name : String)
  | cyclic (name : String)
deriving DecidableEq, Repr

structure Resolver where
  entries : KeyMap Entry := ∅
  /-- The names whose cycle is already among the faults. -/
  cyclic : List String := []
  /-- The faults in the order in which they were found. -/
  faults : List ReferenceFault := []

namespace ReferenceFault

def message : ReferenceFault → String
  | unknown name => s!"Unknown message \"{name}\""
  | cyclic name => s!"Message \"{name}\" references itself"

def toProblem (f : ReferenceFault) : Problem where
  kind := .checks
  message := f.message

end ReferenceFault

namespace Entry

/-- An entry that waits to be resolved. -/
def isWaiting (e : Entry) : Bool :=
  match e.stage with
  | .waiting _ _ => true
  | _ => false

end Entry

namespace Resolver

/-- Register a message, unless its name is taken. -/
def insert? (r : Resolver) (name : String) (visibility : Visibility) (content : List Part)
    (parameters : ParameterSet) : Option Resolver :=
  if r.entries.contains name then none
  else some { r with entries := r.entries.insert name ⟨visibility, .waiting content parameters⟩ }

/-- The names of all registered messages, in order. -/
def names (r : Resolver) : List String :=
  r.entries.keys

/-- How many messages wait to be resolved. -/
def waiting (r : Resolver) : Nat :=
  r.entries.entries.countP (fun e => e.2.isWaiting)

/-- Move a message to another stage. -/
def setStage (r : Resolver) (name : String) (visibility : Visibility) (stage : Stage) : Resolver :=
  { r with entries := r.entries.insert name ⟨visibility, stage⟩ }

/-- Note a reference to a name that is not registered. -/
def noteUnknown (r : Resolver) (name : String) : Resolver :=
  { r with faults := r.faults ++ [.unknown name] }

/-- Note a message that leads back to itself, once. -/
def noteCycle (r : Resolver) (name : String) : Resolver :=
  if r.cyclic.contains name then r
  else { r with cyclic := name :: r.cyclic, faults := r.faults ++ [.cyclic name] }

/-- Content and parameters put together so far, and the resolver that they leave. -/
structure Splice where
  content : List Part
  parameters : ParameterSet
  resolver : Resolver

/-- Take one more part: a reference gives way to the content that `resolve` finds for it, and is
dropped if there is none. -/
def spliceWith (resolve : String → Resolver → Option Message × Resolver) (s : Splice) :
    Part → Splice
  | .reference name =>
    match resolve name s.resolver with
    | (some m, r) => ⟨s.content ++ m.content, s.parameters.union m.parameters, r⟩
    | (none, r) => { s with resolver := r }
  | p => { s with content := s.content ++ [p] }

/-- Resolve a message by going at most `depth` references deep. -/
def resolveWith : (depth : Nat) → (name : String) → Resolver → Option Message × Resolver
  | depth, name, r =>
    match r.entries.find? name with
    | none => (none, r.noteUnknown name)
    | some ⟨_, .done m⟩ => (some m, r)
    | some ⟨_, .underway⟩ => (none, r.noteCycle name)
    | some ⟨visibility, .waiting content parameters⟩ =>
      match depth with
      | 0 => (none, r)
      | depth + 1 =>
        let s := content.foldl (spliceWith (resolveWith depth))
          ⟨[], parameters, r.setStage name visibility .underway⟩
        let m : Message := ⟨visibility, normalize s.content, s.parameters⟩
        (some m, s.resolver.setStage name visibility (.done m))

/-- The message of a name with its references resolved, and the resolver that knows it. Each step
down takes one message from those that wait, so their number bounds the depth. -/
def resolve (r : Resolver) (name : String) : Option Message × Resolver :=
  resolveWith r.waiting name r

/-- Resolve these messages in turn. -/
def resolveEach (r : Resolver) : List String → KeyMap Message × Resolver
  | [] => (∅, r)
  | name :: names =>
    let (m?, r) := r.resolve name
    let (ms, r) := r.resolveEach names
    (match m? with
      | some m => ms.insert name m
      | none => ms, r)

/-- All registered messages with their references resolved. -/
def resolveAll (r : Resolver) : KeyMap Message × Resolver :=
  r.resolveEach r.names

end Resolver

end Polyglot
