import Changefeed.Text.Basic
import Changefeed.Text.Blank
import Changefeed.Text.Letter

/-!
# Kinds of change

A change inserts, updates or deletes a row. Which images of the row a log entry
must carry follows from the kind: the image before the change unless the row is
new, the image after it unless the row is gone.
-/

namespace Changefeed

/-- What a change does to its row. -/
inductive ChangeKind where
  | insert
  | update
  | delete
deriving DecidableEq, Repr

namespace ChangeKind

/-- The word for a kind. -/
def word : ChangeKind → String
  | insert => "insert"
  | update => "update"
  | delete => "delete"

/-- Whether a change of this kind has an image of the row before it. -/
def hasBefore : ChangeKind → Bool
  | insert => false
  | _ => true

/-- Whether a change of this kind has an image of the row after it. -/
def hasAfter : ChangeKind → Bool
  | delete => false
  | _ => true

/-- The kind that a lower-case word or code letter names. -/
def ofWord? (w : String) : Option ChangeKind :=
  if w = "insert" ∨ w = "c" then some insert
  else if w = "update" ∨ w = "u" then some update
  else if w = "delete" ∨ w = "d" then some delete
  else none

/-- The kind that a text names, whatever its case and the blanks around it. -/
def ofText? (t : Text) : Option ChangeKind :=
  t.plain?.bind fun s => ofWord? (Text.lowered (Text.trim s))

theorem ofText?_word (k : ChangeKind) : ofText? k.word = some k := by
  cases k <;> decide +kernel

end ChangeKind

end Changefeed
