import Changefeed.Act
import Changefeed.Disk.Path
import Changefeed.Keyed

/-!
# Disks

The part of a file system that a checkpoint file needs: directories and files
under locations, and the four calls by which a file is replaced as a whole. A
call may fail because of what is on the disk, or because it was planned to: a
plan says for each coming call of a kind whether it fails.

A path is followed name by name (`Disk.locate`), and what it passes through must
be a directory on this disk, also where `..` leads back from it.

`Disk.replace` writes beside a file and renames into place. Whichever of its
calls fails, the file holds its old content or the whole new one, and nothing is
left beside it.
-/

namespace Changefeed

/-- What a file holds. -/
inductive Content where
  | text (s : String)
  /-- Octets that are no text, and where they fail to be one. -/
  | octets (bytes : List UInt8) (flaw : Text.Utf8.Flaw)

/-- The content that octets make up. -/
def Content.ofOctets (bytes : List UInt8) : Content :=
  match Text.Utf8.read bytes with
  | .ok s => .text s
  | .error flaw => .octets bytes flaw

/-- What is at a location. -/
inductive Node where
  | directory
  | file (content : Content)

/-- Which of the coming calls of each kind fail. -/
structure FaultPlan where
  /-- Creating a staged file. -/
  stage : List Bool
  /-- Forcing a file or a directory to the medium. -/
  sync : List Bool
  /-- Renaming. -/
  rename : List Bool

/-- No call fails. -/
def FaultPlan.none : FaultPlan := ⟨[], [], []⟩

/-- A disk. -/
structure Disk where
  nodes : Keyed Location Node
  plan : FaultPlan
  /-- How often something was forced to the medium, or was to be. -/
  syncs : Nat

namespace Disk

/-- A disk that holds nothing. -/
def empty : Disk := ⟨Keyed.empty, .none, 0⟩

/-- What is at a location. -/
def node? (d : Disk) (l : Location) : Option Node :=
  if l.isFixed then some .directory else d.nodes.get? l

/-- Puts something at a location. -/
def put (d : Disk) (l : Location) (n : Node) : Disk := { d with nodes := d.nodes.insert l n }

/-- Takes away what is at a location. -/
def remove (d : Disk) (l : Location) : Disk := { d with nodes := d.nodes.erase l }

/-! ## Following paths -/

/-- The most octets that a name may have. -/
def longestName : Nat := 255

/-- The most octets that the text of a path may have. -/
def longestPath : Nat := 4095

/-- Goes from a location, which must be a directory, to a name in it. -/
def step (d : Disk) (l : Location) (name : String) : Except Fault Location :=
  match d.node? l with
  | none => .error (.system .missing)
  | some (.file _) => .error (.system .notDirectory)
  | some .directory =>
    if longestName < name.utf8ByteSize then .error (.system .failed) else .ok (l.enter name)

/-- Where a path leads. There need not be anything, but everything before it must be a
directory. -/
def locate (d : Disk) (p : Path) : Except Fault Location :=
  if p.hasNull then .error (.argument .nullInPath)
  else if longestPath < p.text.utf8ByteSize then .error (.system .failed)
  else p.names.foldlM d.step p.start

/-- What is at a path, if anything is and its way is there. -/
def find? (d : Disk) (p : Path) : Except Fault (Option Node) :=
  match d.locate p with
  | .ok l => .ok (d.node? l)
  | .error (.system .missing) | .error (.system .notDirectory) | .error (.argument _) => .ok none
  | .error f => .error f

/-- Whether something is missing on the way to a path. -/
def lacksWay (d : Disk) (p : Path) : Bool :=
  match d.locate p with
  | .error (.system .missing) => true
  | _ => false

/-! ## Directories -/

/-- Makes a directory where nothing is yet. -/
def makeDirectory (p : Path) : Act Disk Unit := do
  let l ← Act.ofExcept ((← Act.state).locate p)
  match (← Act.state).node? l with
  | some _ => .fail (.system .exists)
  | none => .update (·.put l .directory)

/-- Makes a directory unless one is there already. -/
def keepDirectory (p : Path) : Act Disk Unit := do
  match ← Act.outcome (makeDirectory p) with
  | .ok _ => pure ()
  | .error (.system cause) =>
    match (← Act.state).find? p with
    | .ok (some .directory) => pure ()
    | _ => .fail (.system cause)
  | .error f => .fail f

/-- Makes sure of the directory of the first `n` names of a path, and first of the one before it
if something is missing on the way. -/
def ensureUpTo (p : Path) : Nat → Act Disk Unit
  | 0 => keepDirectory (p.upTo 0)
  | n + 1 => do
    if (← Act.state).lacksWay (p.upTo (n + 1)) then ensureUpTo p n
    keepDirectory (p.upTo (n + 1))

/-- Makes sure of a directory and of those on the way to it. -/
def ensureDirectory (p : Path) : Act Disk Unit := ensureUpTo p p.names.length

/-- Makes a directory where nothing is yet, and those on the way to it that are missing. -/
def makeDirectories (p : Path) : Act Disk Unit := do
  if (← Act.state).lacksWay p then ensureDirectory p.parent
  makeDirectory p

/-- Whether anything is below a location. -/
def isOccupied (d : Disk) (l : Location) : Bool := d.nodes.keys.any fun k => k.isWithin l && k ≠ l

/-- Takes away the empty directory at a location. -/
def removeDirectoryAt (l : Location) : Act Disk Unit := do
  let d ← Act.state
  match d.node? l with
  | none => .fail (.system .missing)
  | some (.file _) => .fail (.system .notDirectory)
  | some .directory =>
    if l.isFixed || d.isOccupied l then .fail (.system .failed) else .update (·.remove l)

/-- Takes away an empty directory. -/
def removeDirectory (p : Path) : Act Disk Unit := do
  removeDirectoryAt (← Act.ofExcept ((← Act.state).locate p))

/-- Makes way for a node that is to be moved to a location: a file makes way for a file, an empty
directory for a directory. -/
def clear (moved : Node) (target : Location) : Act Disk Unit := do
  match moved, (← Act.state).node? target with
  | _, none => pure ()
  | .file _, some .directory => .fail (.system .isDirectory)
  | .file _, some (.file _) => .update (·.remove target)
  | .directory, some _ => removeDirectoryAt target

/-- Moves what is at a location, with all that is below it. -/
def move (source target : Location) : Act Disk Unit := do
  match (← Act.state).node? source with
  | none => .fail (.system .missing)
  | some n =>
    clear n target
    .update fun d =>
      { d with nodes := Keyed.ofList (d.nodes.toList.map fun (l, n) => (l.moved source target, n)) }

/-! ## Files -/

/-- What the file at a path holds, if there is one. -/
def content? (d : Disk) (p : Path) : Option Content :=
  match d.locate p with
  | .ok l =>
    match d.node? l with
    | some (.file c) => some c
    | _ => none
  | .error _ => none

/-- The text at a path, if anything is there. -/
def readText? (d : Disk) (p : Path) : Except Fault (Option String) := do
  match ← d.find? p with
  | none => return none
  | some .directory => .error (.system .isDirectory)
  | some (.file (.octets _ flaw)) => .error (.encoding flaw)
  | some (.file (.text s)) => return some s

/-- Writes a file, over what it held before. -/
def write (p : Path) (c : Content) : Act Disk Unit := do
  let l ← Act.ofExcept ((← Act.state).locate p)
  match (← Act.state).node? l with
  | some .directory => .fail (.system .isDirectory)
  | _ => .update (·.put l (.file c))

/-- Takes away a file. -/
def delete (p : Path) : Act Disk Unit := do
  let l ← Act.ofExcept ((← Act.state).locate p)
  match (← Act.state).node? l with
  | none => .fail (.system .missing)
  | some .directory => .fail (.system .isDirectory)
  | some (.file _) => .update (·.remove l)

/-! ## Replacing a file as a whole -/

/-- Ends with what was planned for the next call of a kind. -/
def planned : List Bool → Act Disk Unit
  | true :: _ => .fail (.system .failed)
  | _ => pure ()

/-- The path of a file to be staged beside a path, up to the choice of its last eight characters.
It is taken beside the location of the path, whether or not the way to it is there. -/
def stagedPath (p : Path) : Path := p.parent.normal.child ("." ++ p.name ++ ".________")

/-- A location that is free and differs from a given one in its last name only. -/
def free (d : Disk) (l : Location) : Location :=
  let size := ((d.nodes.keys.flatMap Location.names).map String.length).foldl max 0
  { l with names := l.names.dropLast ++ [String.ofList (List.replicate (size + 1) '_')] }

/-- Creates a file with some text beside a path, and says where. -/
def stage (p : Path) (text : String) : Act Disk Location := do
  let d ← Act.state
  .update fun d => { d with plan := { d.plan with stage := d.plan.stage.tail } }
  planned d.plan.stage
  let l ← Act.ofExcept (d.locate (stagedPath p))
  .update (·.put (d.free l) (.file (.text text)))
  return d.free l

/-- Forces something to the medium. -/
def sync : Act Disk Unit := do
  let d ← Act.state
  .update fun d => { d with plan := { d.plan with sync := d.plan.sync.tail }, syncs := d.syncs + 1 }
  planned d.plan.sync

/-- Renames the file at a location to a path, over what the file there held before. -/
def rename (source : Location) (p : Path) : Act Disk Unit := do
  let d ← Act.state
  .update fun d => { d with plan := { d.plan with rename := d.plan.rename.tail } }
  planned d.plan.rename
  let l ← Act.ofExcept (d.locate p)
  match d.node? source, d.node? l with
  | none, _ => .fail (.system .missing)
  | some _, some .directory => .fail (.system .isDirectory)
  | some n, _ => .update fun d => (d.remove source).put l n

/-- Writes a text beside a file and renames it into place; if asked to, forces first the text and
then the directory to the medium. -/
def replace (p : Path) (text : String) (durable : Bool) : Act Disk Unit := do
  let staged ← stage p text
  let discard := fun _ => Act.update fun d => d.remove staged
  if durable then sync.onFault discard
  (rename staged p).onFault discard
  if durable then sync

/-! ## Listing -/

/-- The paths of everything below the working directory, in ascending order. -/
def list (d : Disk) : List String :=
  let below := d.nodes.keys.filter fun l => !l.rooted && l.names.head? ≠ some ".."
  (below.map fun l => "/".intercalate l.names).mergeSort fun a b => decide (a ≤ b)

end Disk

end Changefeed
