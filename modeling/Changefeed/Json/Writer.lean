import Changefeed.Data.Basic
import Changefeed.Keyed
import Changefeed.Text.Quoted

/-!
# Writing JSON

Documents are written on one line, the fields of every record in ascending order
of their names, with a comma and a space between parts and a colon and a space
behind a name. A string is written unit by unit. Everything but printable ASCII is
escaped: the quote, the backslash and the five control characters that have a
letter with a backslash, all others with their four hexadecimal digits.
-/

namespace Changefeed.Json

/-- Doubles in documents have an exponent from `1e+16` up and below `0.0001`. -/
def numberLayout : Double.Layout := ⟨-4, 16, 2, "Infinity", "NaN"⟩

/-- The units that are written with a letter behind a backslash, each with its letter. -/
def letters : List (UInt16 × Char) :=
  [(0x22, '"'), (0x5C, '\\'), (0x0A, 'n'), (0x0D, 'r'), (0x09, 't'), (0x0C, 'f'), (0x08, 'b')]

/-- One unit of a string. -/
def escapeUnit (u : UInt16) : List Char :=
  match Keyed.find u letters with
  | some letter => ['\\', letter]
  | none =>
    if 0x20 ≤ u ∧ u ≤ 0x7E then [Char.ofNat u.toNat]
    else '\\' :: 'u' :: Text.hexDigits 4 u.toNat

/-- A string between its quotes. -/
def stringChars (t : Text) : List Char := '"' :: t.units.flatMap escapeUnit ++ ['"']

/-- Parts with a comma and a space between. -/
def separated : List (List Char) → List Char
  | [] => []
  | [p] => p
  | p :: rest => p ++ ',' :: ' ' :: separated rest

/-- Fields in ascending order of their names. -/
def sortFields {α : Type} (fields : List (Text × α)) : List (Text × α) :=
  fields.mergeSort fun a b => decide (a.1 ≤ b.1)

mutual

/-- A value. -/
def writeValue : Json → List Char
  | .null => "null".toList
  | .bool true => "true".toList
  | .bool false => "false".toList
  | .int n => (toString n).toList
  | .float x => (x.render numberLayout).toList
  | .text t => stringChars t
  | .list items => '[' :: separated (writeItems items) ++ [']']
  | .record fields =>
    '\x7b' :: separated ((sortFields (writeFields fields)).map Prod.snd) ++ ['\x7d']
  | .mark m => nomatch m

/-- Each item of a list. -/
def writeItems : List Json → List (List Char)
  | [] => []
  | x :: rest => writeValue x :: writeItems rest

/-- Each field of a record, beside its name. -/
def writeFields : List (Text × Json) → List (Text × List Char)
  | [] => []
  | (k, x) :: rest => (k, stringChars k ++ ':' :: ' ' :: writeValue x) :: writeFields rest

end

/-- The text of a document. -/
def write (j : Json) : String := String.ofList (writeValue j)

end Changefeed.Json
