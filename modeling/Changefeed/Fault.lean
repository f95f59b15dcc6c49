import Changefeed.Data.Shown
import Changefeed.Stream.Phase
import Changefeed.Text.Utf8

/-!
# Faults

Everything that can go wrong, by its cause. A cause carries what its message
names, and nothing is worded before `Fault.message` words it. `Fault.family`
sorts the causes into the few families by which callers tell them apart.
-/

namespace Changefeed

/-! ## Causes -/

/-- One of the two halves of a position. -/
inductive Half where
  | file
  | offset
deriving DecidableEq, Repr

/-- The name of a half. -/
def Half.name : Half → String
  | .file => "unique_id"
  | .offset => "offset"

/-- What is no position, or no checkpoint document. -/
inductive FormatCause where
  | notWhole (v : Value)
  | outOfRange (n : Int)
  | halfNotWhole (half : Half) (v : Value)
  | halfOutOfRange (half : Half) (n : Int)
  /-- A text, or a mark that is one. -/
  | badText (v : Value)
  /-- The entry of a key in the checkpoint file at a path. -/
  | badEntry (entry : Json) (key : Text) (path : String)
  | notJson (path : String)
  | notRecord (path : String)

/-- One of the two images of a row. -/
inductive Side where
  | before
  | after
deriving DecidableEq, Repr

/-- The word for a side. -/
def Side.word : Side → String
  | .before => "before"
  | .after => "after"

/-- The image of a side, with its article. -/
def Side.image : Side → String
  | .before => "a before-image"
  | .after => "an after-image"

/-- What is wrong with a log entry or a payload of them. -/
inductive ChangeCause where
  | notJson
  | notRecord
  | noTable
  | noKind (table : Text)
  | noPosition (table : Text)
  | imageNotRecord (side : Side) (table : Text)
  | unknownKind (v : Value)
  | extraImage (kind : ChangeKind) (side : Side) (table : Text) (position : Position)
  | absentImage (kind : ChangeKind) (side : Side) (table : Text) (position : Position)
  | undeclared (side : Side) (table : Text) (columns : List Text)

/-- What does not follow the order of the log. -/
inductive OrderCause where
  /-- A change came before the snapshot of the stream was complete. -/
  | early (position : Position) (stream : Text)
  /-- A change lies no further than the stream has come. -/
  | behind (position : Position) (table stream : Text) (reached : Position)
  /-- A position that the stream has not accepted was to be committed. -/
  | ahead (position : Position) (stream : Text) (reached : Position)

/-- What was asked of a stopped stream. -/
inductive StopCause where
  | offer (stream : Text)
  | transition (transition : Transition) (stream : Text)

/-- An argument that an operation refuses. -/
inductive ArgumentCause where
  /-- A text is a numeral with too many digits. -/
  | longNumeral (digits : Nat)
  /-- A whole number has too many digits to be written. -/
  | longNumber
  | noTableName
  | noColumns (table : Value)
  | repeatedColumns (table : Value)
  | resetOfNothing
  | resetUnexpected
  | resetForward
  | unknownPolicy (name : String)
  | negativeAmount
  /-- A path holds the character that ends paths. -/
  | nullInPath

/-- A value of a type that an operation has no use for. -/
inductive MisuseCause where
  | notIterable (v : Value)
  | notKey (v : Value)
  | incomparable (relation : String) (v : Value)

/-- How a call to the file system fails. -/
inductive SystemCause where
  | missing
  | exists
  | isDirectory
  | notDirectory
  /-- In any other way. -/
  | failed
deriving DecidableEq, Repr

/-! ## Families -/

/-- The kinds of fault that callers tell apart. -/
inductive Family where
  /-- A fault of the feed that belongs to no other family. -/
  | general
  | format
  | unknownTable
  | malformed
  | order
  | stopped
  | lifecycle
  | argument
  | misuse
  | encoding
  /-- A failure of the sink or of the source. -/
  | collaborator
  | system (cause : SystemCause)
deriving DecidableEq, Repr

/-- Whether the faults of a family are the feed's own. -/
def Family.isOwn : Family → Bool
  | .general | .format | .unknownTable | .malformed | .order | .stopped | .lifecycle => true
  | _ => false

/-- Whether the faults of a family are about the value of an argument. -/
def Family.isValue : Family → Bool
  | .format | .argument | .encoding => true
  | _ => false

/-- Whether the faults of a family are about a name that nothing is known by. -/
def Family.isKey : Family → Bool
  | .unknownTable => true
  | _ => false

/-! ## Faults -/

/-- A fault, by its cause. -/
inductive Fault where
  | format (cause : FormatCause)
  | unknownTable (table : Text)
  | malformed (cause : ChangeCause)
  | order (cause : OrderCause)
  | stopped (cause : StopCause)
  | lifecycle (transition : Transition) (stream : Text) (phase : Phase)
  | argument (cause : ArgumentCause)
  | misuse (cause : MisuseCause)
  | encoding (flaw : Text.Utf8.Flaw)
  | system (cause : SystemCause)
  /-- A fault of a family, in the words of whoever reported it. -/
  | reported (family : Family) (text : Text)

namespace Fault

/-- The family of a fault. -/
def family : Fault → Family
  | format _ => .format
  | unknownTable _ => .unknownTable
  | malformed _ => .malformed
  | order _ => .order
  | stopped _ => .stopped
  | lifecycle .. => .lifecycle
  | argument _ => .argument
  | misuse _ => .misuse
  | encoding _ => .encoding
  | system cause => .system cause
  | reported family _ => family

/-- A fault whose message shows a value. If a whole number in the value cannot be written, there is
no message, and that is the fault. -/
def showing (v : Value) (f : Fault) : Fault :=
  if v.isWritable then f else .argument .longNumber

theorem showing_of_writable {v : Value} (h : v.isWritable = true) (f : Fault) : showing v f = f :=
  if_pos h

theorem showing_of_not_writable {v : Value} (h : v.isWritable = false) (f : Fault) :
    showing v f = .argument .longNumber :=
  if_neg (by simp [h])

end Fault

/-! ## Messages -/

/-- The wording of a cause. -/
def FormatCause.message : FormatCause → Text
  | notWhole v => s!"LSN sequence must be an integer, got {v.shown}"
  | outOfRange n => s!"LSN sequence {n} exceeds signed 64-bit range"
  | halfNotWhole half v => s!"{half.name} must be an integer, got {v.shown}"
  | halfOutOfRange half n => s!"{half.name} {n} is outside the 32-bit range"
  | badText v => s!"invalid LSN text: {v.shown}"
  | badEntry entry key path =>
    "stored position " ++ entry.shown ++ " for " ++ key ++ " in " ++ path ++ " is not a valid LSN"
  | notJson path => s!"checkpoint file {path} is not valid JSON"
  | notRecord path => s!"checkpoint file {path} must hold a JSON object"

@[inherit_doc FormatCause.message]
def ChangeCause.message : ChangeCause → Text
  | notJson => "change payload is not valid JSON"
  | notRecord => "change entry must be a JSON object"
  | noTable => "change entry does not name a table"
  | noKind table => "change entry for " ++ table ++ " has no operation"
  | noPosition table => "change entry for " ++ table ++ " has no lsn"
  | imageNotRecord side table => side.word ++ "-image for " ++ table ++ " must be a JSON object"
  | unknownKind v => s!"unknown operation {v.shown}"
  | extraImage kind side table position =>
    kind.word ++ " on " ++ table ++ " at " ++ position.text ++ " carries " ++ side.image
  | absentImage kind side table position =>
    kind.word ++ " on " ++ table ++ " at " ++ position.text ++ " is missing its " ++ side.word ++ "-image"
  | undeclared side table columns =>
    side.word ++ "-image for " ++ table ++ " reports undeclared columns: " ++ Text.commaSeparated columns

@[inherit_doc FormatCause.message]
def OrderCause.message : OrderCause → Text
  | early position stream =>
    "change at " ++ position.text ++ " arrived before the snapshot of stream " ++ stream ++ " completed"
  | behind position table stream reached =>
    "change at " ++ position.text ++ " on " ++ table ++ " does not advance stream " ++ stream ++ " past "
      ++ reached.text
  | ahead position stream reached =>
    "cannot commit " ++ position.text ++ ": stream " ++ stream ++ " only accepted up to " ++ reached.text

@[inherit_doc FormatCause.message]
def StopCause.message : StopCause → Text
  | offer stream => "stream " ++ stream ++ " is stopped"
  | transition t stream => "cannot " ++ t.words ++ ": stream " ++ stream ++ " is stopped"

@[inherit_doc FormatCause.message]
def ArgumentCause.message : ArgumentCause → String
  | longNumeral digits =>
    s!"Exceeds the limit (4300 digits) for integer string conversion: value has {digits} digits; " ++
      "use sys.set_int_max_str_digits() to increase the limit"
  | longNumber =>
    "Exceeds the limit (4300 digits) for integer string conversion; " ++
      "use sys.set_int_max_str_digits() to increase the limit"
  | noTableName => "table identifier is required"
  | noColumns table => s!"table {table.shown} must declare at least one column"
  | repeatedColumns table => s!"table {table.shown} declares duplicate column names"
  | resetOfNothing => "resume position missing; supply force=True to reset"
  | resetUnexpected => "unexpected resume position value"
  | resetForward => "new resume position must not exceed current value"
  | unknownPolicy name => s!"unsupported out-of-order policy {Text.quoted name}"
  | negativeAmount => "Counters can only be incremented by non-negative amounts."
  | nullInPath => "embedded null byte"

@[inherit_doc FormatCause.message]
def MisuseCause.message : MisuseCause → String
  | notIterable v => s!"'{v.typeName}' object is not iterable"
  | notKey v => s!"unhashable type: '{v.typeName}'"
  | incomparable relation v =>
    s!"'{relation}' not supported between instances of 'Lsn' and '{v.typeName}'"

namespace Fault

/-- The wording of a place where octets are not UTF-8. -/
def encodingMessage (flaw : Text.Utf8.Flaw) : String :=
  let place :=
    if flaw.count = 1 then
      s!"byte 0x{String.ofList (Text.hexDigits 2 flaw.octet)} in position {flaw.start}"
    else s!"bytes in position {flaw.start}-{flaw.start + flaw.count - 1}"
  s!"'utf-8' codec can't decode {place}: {flaw.reason.text}"

/-- The wording of a fault. What the operating system says of a failed call is its own. -/
def message : Fault → Text
  | format cause => cause.message
  | unknownTable table => s!"no column order registered for table {Text.quoted table}"
  | malformed cause => cause.message
  | order cause => cause.message
  | stopped cause => cause.message
  | lifecycle transition stream phase =>
    "cannot " ++ transition.words ++ ": stream " ++ stream ++ " is " ++ phase.word
  | argument cause => cause.message
  | misuse cause => cause.message
  | encoding flaw => encodingMessage flaw
  | system _ => "<os error>"
  | reported .unknownTable table => s!"no column order registered for table {Text.quoted table}"
  | reported _ text => text

end Fault

end Changefeed
