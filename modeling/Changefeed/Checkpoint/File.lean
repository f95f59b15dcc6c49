import Changefeed.Checkpoint.Basic
import Changefeed.Disk.Basic
import Changefeed.Json.Reader
import Changefeed.Json.Writer
import Changefeed.Position.Reading

/-!
# The checkpoint file

A checkpoint file holds one JSON object, with the position of each stream as
text under its key. An entry that denotes no position is corrupt: it is kept as
it is, and whoever asks for the position of its key is told so, until a forced
reset discards it. Entries for the null position are left out.

The store works on a copy in memory and replaces the file as a whole whenever
the copy changes. The copy changes first, so after a failed replacement the
store knows more than the file; the next replacement makes up for it.
-/

namespace Changefeed

/-- What a store on a checkpoint file knows of it. -/
structure FileStore where
  path : Path
  /-- Whether each new file and its directory are forced to the medium. -/
  durable : Bool
  positions : Keyed Text Sequence
  /-- The entries that denote no position. -/
  corrupt : Keyed Text Json

/-- A store on a checkpoint file, beside the disk that the file is on. -/
structure Mounted where
  store : FileStore
  disk : Disk

namespace FileStore

/-! ## Opening -/

/-- A store on a path that knows of no entries. -/
def blank (path : Path) (durable : Bool) : FileStore := ⟨path, durable, Keyed.empty, Keyed.empty⟩

/-- The position that an entry denotes, if it denotes one. A text that is too long to be read as a
numeral is a fault of the whole file. -/
def entryPosition (entry : Json) : Except Fault (Option Position) :=
  match entry with
  | .text _ | .int _ | .bool _ =>
    match Position.ofJson entry with
    | .ok p => .ok (some p)
    | .error (.format _) => .ok none
    | .error f => .error f
  | _ => .ok none

/-- Takes an entry of the file into the copy. -/
def learn (key : Text) (entry : Json) : Act FileStore Unit := do
  match ← Act.ofExcept (entryPosition entry) with
  | some .null => pure ()
  | some (.known n) => .update fun s => { s with positions := s.positions.insert key n }
  | none =>
    .note (.badEntry entry key (← Act.state).path.text)
    .update fun s => { s with corrupt := s.corrupt.insert key entry }

/-- The entries of a checkpoint document. A text of blanks holds none. -/
def parse (path : Path) (text : String) : Except Fault (List (Text × Json)) :=
  if Text.isBlankText text then .ok []
  else
    match Json.read text with
    | .ok (.record fields) => .ok fields
    | .ok _ => .error (.format (.notRecord path.text))
    | .error .malformed => .error (.format (.notJson path.text))
    | .error (.longNumeral digits) => .error (.argument (.longNumeral digits))

/-- Opens a store on a path. The directories on the way to it are made if they are missing. -/
def openAt (path : Path) (durable : Bool) : Act Disk FileStore := do
  Disk.ensureDirectory path.parent
  match ← Act.ofExcept ((← Act.state).readText? path) with
  | none => return blank path durable
  | some text =>
    let entries ← Act.ofExcept (parse path text)
    let (_, store) ← Act.apart (blank path durable) (entries.forM fun e => learn e.1 e.2)
    return store

/-! ## Reading and replacing -/

/-- The sequence stored for a stream, if any; a fault if its entry is corrupt. -/
def current (s : FileStore) (key : Text) : Except Fault (Option Sequence) :=
  match s.corrupt.get? key with
  | some entry => .error (.format (.badEntry entry key s.path.text))
  | none => .ok (s.positions.get? key)

/-- The position of a stream; null if none is stored. -/
def load (s : FileStore) (key : Text) : Except Fault Position :=
  (s.current key).map Position.ofKnown

/-- The document of what the store knows: the corrupt entries as they were, the positions as
text. -/
def document (s : FileStore) : Json :=
  .record (s.corrupt.insertMany
    (s.positions.toList.map fun e => (e.1, .text (Position.known e.2).text))).toList

/-- Acts on the disk. -/
def onDisk {α : Type} (act : Act Disk α) : Act Mounted α :=
  act.within (·.disk) fun d m => { m with disk := d }

/-- Changes what the store knows. -/
def revise (f : FileStore → FileStore) : Act Mounted Unit :=
  .update fun m => { m with store := f m.store }

/-- Replaces the file by one with what the store knows. -/
def flush : Act Mounted Unit := do
  let s := (← Act.state).store
  (onDisk (Disk.replace s.path (Json.write s.document) s.durable)).onFault fun
    | .system cause => .note (.unsaved s.path.text cause)
    | _ => pure ()

/-- Whether a stored sequence makes saving another one needless: something is stored, and no
further than it. -/
def covers (current : Option Sequence) (n : Sequence) : Bool := current.any (n ≤ ·)

/-- Stores a position, unless it is null or no further than the one stored. -/
def save (key : Text) : Position → Act Mounted Unit
  | .null => pure ()
  | .known n => do
    let current ← Act.ofExcept ((← Act.state).store.current key)
    if covers current n then pure ()
    else
      revise fun s => { s with positions := s.positions.insert key n }
      flush

/-- Discards a corrupt entry, if there is one. -/
def discard (key : Text) : Act Mounted Unit := do
  let s := (← Act.state).store
  match s.corrupt.get? key with
  | none => pure ()
  | some entry =>
    revise fun s => { s with corrupt := s.corrupt.erase key }
    .note (.discarded entry key s.path.text)

/-- The copy with another position in place of the one stored. -/
def replace (key : Text) (target : Option Position) (s : FileStore) : FileStore :=
  match target with
  | some (.known n) => { s with positions := s.positions.insert key n }
  | _ => { s with positions := s.positions.erase key }

/-- Replaces or removes a position. -/
def reset (key : Text) (r : Reset) : Act Mounted Unit := do
  if r.force then discard key
  let current ← Act.ofExcept ((← Act.state).store.current key)
  match r.refusal? current with
  | some cause => .fail (.argument cause)
  | none =>
    revise (replace key r.target)
    flush

instance : CheckpointStore Mounted where
  load m key := m.store.load key
  save := save
  reset := reset

end FileStore

end Changefeed
