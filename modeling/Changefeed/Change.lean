import Changefeed.Catalog

/-!
# Changes

A log entry reports the columns of a row in whatever order the log keeps them.
A change is a log entry put into the declaration order of its table: each image
is a list of values beside the declared columns, with a mark where the entry
reported nothing. Only an entry whose table is declared, whose kind is known,
whose images are those of its kind and whose columns are all declared becomes a
change.
-/

namespace Changefeed

/-- The reported columns of a row, in the order of the log. -/
abbrev Image := Keyed Text Value

/-- A change as the log reports it. -/
structure LogEntry where
  table : Text
  /-- The kind of change, as it was given. -/
  kind : Value
  position : Position
  before : Option Image
  after : Option Image

/-- The image of a log entry on a side. -/
def LogEntry.image (e : LogEntry) : Side → Option Image
  | .before => e.before
  | .after => e.after

/-- A change in the declaration order of its table. -/
structure Change where
  table : Text
  kind : ChangeKind
  position : Position
  columns : List Text
  before : Option (List Value)
  after : Option (List Value)

namespace Change

/-- The values of a change beside their columns. -/
def row (columns : List Text) (values : List Value) : Image :=
  Keyed.ofList (columns.zip values)

/-- The row before the change, column by column. -/
def beforeRow (c : Change) : Option Image := c.before.map (row c.columns)

/-- The row after the change, column by column. -/
def afterRow (c : Change) : Option Image := c.after.map (row c.columns)

/-- Whether no value of an image is marked as missing. -/
def imageComplete : Option (List Value) → Bool
  | none => true
  | some values => !values.any Value.isMissing

/-- Whether every column of every image was reported. -/
def isComplete (c : Change) : Bool := imageComplete c.before && imageComplete c.after

end Change

/-! ## From log entries to changes -/

/-- The kind of change that a value names. Any value but a kind is read by its text. -/
def ChangeKind.ofValue : Value → Except Fault ChangeKind
  | .mark (.kind k) => .ok k
  | v =>
    if !v.isWritable then .error (.argument .longNumber)
    else
      match ofText? v.asText with
      | some k => .ok k
      | none => .error (.malformed (.unknownKind v))

/-- Whether a change of a kind has an image on a side. -/
def ChangeKind.has (k : ChangeKind) : Side → Bool
  | .before => k.hasBefore
  | .after => k.hasAfter

namespace LogEntry

/-- What is wrong with the images of an entry of some kind, if anything: an image too many counts
before one too few, and the image before the change counts before the one after it. -/
def imageFlaw? (e : LogEntry) (k : ChangeKind) : Option ChangeCause :=
  if !k.hasBefore && e.before.isSome then some (.extraImage k .before e.table e.position)
  else if !k.hasAfter && e.after.isSome then some (.extraImage k .after e.table e.position)
  else if k.hasBefore && e.before.isNone then some (.absentImage k .before e.table e.position)
  else if k.hasAfter && e.after.isNone then some (.absentImage k .after e.table e.position)
  else none

/-- The columns of an image that are not declared, in ascending order. -/
def undeclared (columns : List Text) (image : Image) : List Text :=
  (image.keys.filter (· ∉ columns)).mergeSort fun a b => decide (a ≤ b)

/-- The values of an image beside the declared columns. -/
def align (columns : List Text) (image : Image) : List Value :=
  columns.map fun name => (image.get? name).getD (.mark .missing)

/-- The image of an entry on a side, in declaration order. -/
def alignSide (e : LogEntry) (columns : List Text) (side : Side) :
    Except Fault (Option (List Value)) :=
  match e.image side with
  | none => .ok none
  | some image =>
    if undeclared columns image = [] then .ok (some (align columns image))
    else .error (.malformed (.undeclared side e.table (undeclared columns image)))

/-- Puts an entry into the declaration order of its table. -/
def assemble (catalog : Catalog) (e : LogEntry) : Except Fault Change := do
  let columns ← catalog.columns e.table
  let kind ← ChangeKind.ofValue e.kind
  match e.imageFlaw? kind with
  | some cause => .error (.malformed cause)
  | none =>
    let before ← e.alignSide columns .before
    let after ← e.alignSide columns .after
    .ok ⟨e.table, kind, e.position, columns, before, after⟩

end LogEntry

end Changefeed
