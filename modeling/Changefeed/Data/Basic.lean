import Changefeed.ChangeKind
import Changefeed.Double.Shortest
import Changefeed.Position.Basic
import Changefeed.Text.Basic

/-!
# Data of any shape

What a log entry, a column or a checkpoint entry may hold: scalars, lists and
records. Two kinds of data occur. A document (`Json`) holds nothing else. A
`Value` may also hold marks, things that stand beside the data of a document:
that a column was not reported, a position, a kind of change.
-/

namespace Changefeed

/-- Data of any shape, with marks of type `μ`. The keys of a record are distinct. -/
inductive Data (μ : Type) where
  | null
  | bool (b : Bool)
  | int (n : Int)
  | float (x : Double)
  | text (t : Text)
  | list (items : List (Data μ))
  | record (fields : List (Text × Data μ))
  | mark (m : μ)

instance {μ : Type} : Inhabited (Data μ) := ⟨.null⟩

/-- The data of a document, which holds no marks. -/
abbrev Json := Data Empty

/-- What stands beside data. -/
inductive Mark where
  /-- The log entry did not report the column. -/
  | missing
  | position (p : Position)
  | kind (k : ChangeKind)
deriving DecidableEq

/-- Data that may hold marks. -/
abbrev Value := Data Mark

namespace Data

variable {μ : Type}

mutual

/-- A document as data that could hold marks. -/
def ofJson : Json → Data μ
  | .null => .null
  | .bool b => .bool b
  | .int n => .int n
  | .float x => .float x
  | .text t => .text t
  | .list items => .list (ofJsonItems items)
  | .record fields => .record (ofJsonFields fields)
  | .mark m => nomatch m

/-- The items of a list, as data that could hold marks. -/
def ofJsonItems : List Json → List (Data μ)
  | [] => []
  | x :: rest => ofJson x :: ofJsonItems rest

/-- The fields of a record, as data that could hold marks. -/
def ofJsonFields : List (Text × Json) → List (Text × Data μ)
  | [] => []
  | (k, x) :: rest => (k, ofJson x) :: ofJsonFields rest

end

/-- Whether data says something: what is null, false, zero or empty does not, nor does a mark that
is void. -/
def saysSomething (isVoid : μ → Bool) : Data μ → Bool
  | .null => false
  | .bool b => b
  | .int n => n ≠ 0
  | .float x => !x.isZero
  | .text t => !t.isEmpty
  | .list items => !items.isEmpty
  | .record fields => !fields.isEmpty
  | .mark m => !isVoid m

end Data

/-- Whether a mark says nothing: only the one for an unreported column. -/
def Mark.isVoid : Mark → Bool
  | .missing => true
  | _ => false

/-- Whether a document says something. -/
def Json.saysSomething (j : Json) : Bool := Data.saysSomething Empty.elim j

/-- Whether a value says something. -/
def Value.saysSomething (v : Value) : Bool := Data.saysSomething Mark.isVoid v

/-- Whether a value is the mark of an unreported column. -/
def Value.isMissing : Value → Bool
  | .mark .missing => true
  | _ => false

end Changefeed
