import Changefeed.Data.Basic
import Changefeed.Text.Decimal
import Changefeed.Text.Quoted

/-!
# Data in messages

How data is shown in a message: scalars by their names and numerals, text in
quotes, lists and records in brackets and braces with their contents in order.
Text that stands for itself (`Data.asText`) is not quoted. Data that holds a whole
number with too many digits cannot be shown (`isWritable`).
-/

namespace Changefeed

/-- Doubles in messages have an exponent from `1e+16` up and below `0.0001`. -/
def messageLayout : Double.Layout := ⟨-4, 16, 2, "inf", "nan"⟩

/-- How marks are shown. -/
class ShownMark (μ : Type) where
  /-- Inside other data and where data is quoted. -/
  shown : μ → String
  /-- Where data stands for itself. -/
  text : μ → String

instance : ShownMark Empty := ⟨Empty.elim, Empty.elim⟩

/-- The name of a kind, in capitals. -/
def ChangeKind.name (k : ChangeKind) : String := Text.uppered k.word

instance : ShownMark Mark where
  shown
    | .missing => "MISSING"
    | .position p => s!"Lsn({p})"
    | .kind k => s!"<Operation.{k.name}: {Text.quoted k.word}>"
  text
    | .missing => "MISSING"
    | .position p => p.text
    | .kind k => s!"Operation.{k.name}"

namespace Data

variable {μ : Type}

mutual

/-- Whether every whole number in data can be written. -/
def isWritable : Data μ → Bool
  | .int n => Text.Decimal.isShort n
  | .list items => areWritable items
  | .record fields => holdWritable fields
  | _ => true

/-- Whether every whole number in the items of a list can be written. -/
def areWritable : List (Data μ) → Bool
  | [] => true
  | x :: rest => isWritable x && areWritable rest

/-- Whether every whole number in the fields of a record can be written. -/
def holdWritable : List (Text × Data μ) → Bool
  | [] => true
  | (_, x) :: rest => isWritable x && holdWritable rest

end

mutual

/-- A document can be written as what it is. -/
theorem isWritable_ofJson : ∀ j : Json, (ofJson j : Data μ).isWritable = j.isWritable
  | .null | .bool _ | .int _ | .float _ | .text _ => rfl
  | .list items => by rw [ofJson, isWritable, isWritable, areWritable_ofJson]
  | .record fields => by rw [ofJson, isWritable, isWritable, holdWritable_ofJson]
  | .mark m => nomatch m

theorem areWritable_ofJson : ∀ items : List Json,
    areWritable (ofJsonItems items : List (Data μ)) = areWritable items
  | [] => rfl
  | x :: rest => by rw [ofJsonItems, areWritable, areWritable, isWritable_ofJson, areWritable_ofJson]

theorem holdWritable_ofJson : ∀ fields : List (Text × Json),
    holdWritable (ofJsonFields fields : List (Text × Data μ)) = holdWritable fields
  | [] => rfl
  | (_, x) :: rest => by
    rw [ofJsonFields, holdWritable, holdWritable, isWritable_ofJson, holdWritable_ofJson]

end

variable [ShownMark μ]

/-- Texts one after the other, with a comma between. -/
def commaSeparated (ts : List String) : String := ", ".intercalate ts

mutual

/-- How data is shown. -/
def shown : Data μ → String
  | .null => "None"
  | .bool true => "True"
  | .bool false => "False"
  | .int n => toString n
  | .float x => x.render messageLayout
  | .text t => Text.quoted t
  | .list items => "[" ++ commaSeparated (shownItems items) ++ "]"
  | .record fields => "\x7b" ++ commaSeparated (shownFields fields) ++ "\x7d"
  | .mark m => ShownMark.shown m

/-- How the items of a list are shown. -/
def shownItems : List (Data μ) → List String
  | [] => []
  | x :: rest => shown x :: shownItems rest

/-- How the fields of a record are shown. -/
def shownFields : List (Text × Data μ) → List String
  | [] => []
  | (k, x) :: rest => (Text.quoted k ++ ": " ++ shown x) :: shownFields rest

end

/-- Data as a text that stands for itself. -/
def asText : Data μ → Text
  | .text t => t
  | .mark m => ShownMark.text m
  | x => x.shown

end Data

/-- The name of the type of a value, for messages about its misuse. -/
def Value.typeName : Value → String
  | .null => "NoneType"
  | .bool _ => "bool"
  | .int _ => "int"
  | .float _ => "float"
  | .text _ => "str"
  | .list _ => "list"
  | .record _ => "dict"
  | .mark .missing => "_Missing"
  | .mark (.position _) => "Lsn"
  | .mark (.kind _) => "Operation"

end Changefeed
