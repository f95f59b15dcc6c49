import Changefeed.Change
import Changefeed.Json.Reader
import Changefeed.Position.Reading

/-!
# Payloads of log entries

A log reader delivers its entries as JSON: one object, or a list of them. An
entry names its table, as a whole or as schema and name; the kind of change,
under either of two fields; its position; and its images. A payload is refused
as a whole for its first bad entry, and an entry for the first of its flaws in
the order just given, an unknown kind coming last.
-/

namespace Changefeed.Payload

/-- The value of a field. -/
def field? (fields : List (Text × Json)) (name : Text) : Option Json := Keyed.find name fields

/-- The value of a field, unless it is absent or null. -/
def given? (fields : List (Text × Json)) (name : Text) : Option Json :=
  match field? fields name with
  | some .null => none
  | x => x

/-- The value of a field, if it says something. -/
def telling? (fields : List (Text × Json)) (name : Text) : Option Json :=
  (field? fields name).filter Json.saysSomething

/-- The table that an entry names. -/
def table? (fields : List (Text × Json)) : Option Text :=
  match telling? fields "table" with
  | some t => some t.asText
  | none =>
    match telling? fields "schema", telling? fields "name" with
    | some s, some n => some (s.asText ++ "." ++ n.asText)
    | _, _ => none

/-- The kind of change that an entry gives. A field `op` hides a field `kind`, even if it is
null. -/
def kind? (fields : List (Text × Json)) : Option Json :=
  match field? fields "op" with
  | some _ => given? fields "op"
  | none => given? fields "kind"

/-- The image of an entry on a side. -/
def image (fields : List (Text × Json)) (table : Text) (side : Side) :
    Except Fault (Option Image) :=
  match given? fields side.word with
  | none => .ok none
  | some (.record columns) => .ok (some (Keyed.ofList (Data.ofJsonFields columns)))
  | some _ => .error (.malformed (.imageNotRecord side table))

/-- A value, or else the fault of its absence. -/
def require {α : Type} (cause : ChangeCause) : Option α → Except Fault α
  | some a => .ok a
  | none => .error (.malformed cause)

/-- The log entry in an object with these fields. -/
def entryOfFields (fields : List (Text × Json)) : Except Fault LogEntry := do
  let table ← require .noTable (table? fields)
  let kind ← require (.noKind table) (kind? fields)
  let place ← require (.noPosition table) (given? fields "lsn")
  let position ← Position.ofJson place
  let before ← image fields table .before
  let after ← image fields table .after
  let kind ← ChangeKind.ofValue (Data.ofJson kind)
  return ⟨table, .mark (.kind kind), position, before, after⟩

/-- The log entry that a document holds. -/
def entry : Json → Except Fault LogEntry
  | .record fields => entryOfFields fields
  | _ => .error (.malformed .notRecord)

/-- The log entries of a document, in order. -/
def entries : Json → Except Fault (List LogEntry)
  | .list items => items.mapM entry
  | item => (entry item).map fun e => [e]

/-- The log entries of a text. -/
def ofText (s : String) : Except Fault (List LogEntry) :=
  match Json.read s with
  | .ok document => entries document
  | .error .malformed => .error (.malformed .notJson)
  | .error (.longNumeral digits) => .error (.argument (.longNumeral digits))

/-- The log entries of a text in UTF-8. -/
def ofOctets (octets : List UInt8) : Except Fault (List LogEntry) :=
  match Text.Utf8.read octets with
  | .ok s => ofText s
  | .error flaw => .error (.encoding flaw)

end Changefeed.Payload
