import Changefeed.Fault
import Changefeed.Text.Decimal

/-!
# Reading positions

A position is given as a whole number, as text, as its two halves, or is absent.
A number below zero, the word `NULL` in any case, and an absent value all give
the null position; a number that no signed 64-bit word holds is refused, and so is
a half that 32 bits do not hold. Such a refusal shows the number, and where that
cannot be written it is refused as such.
-/

namespace Changefeed.Position

/-- The position of a number. -/
def ofInt (n : Int) : Except Fault Position :=
  if n < -sequenceLimit ∨ sequenceLimit ≤ n then .error (.showing (.int n) (.format (.outOfRange n)))
  else if h : 0 ≤ n ∧ n < sequenceLimit then .ok (known ⟨n.toNat, by omega⟩)
  else .ok null

/-- The position of a whole number or of an absent value; anything else is refused. -/
def ofWhole : Value → Except Fault Position
  | .null => .ok null
  | .int n => ofInt n
  | v => .error (.showing v (.format (.notWhole v)))

/-- The position that a text denotes, whatever the blanks around it: the word `NULL`, or a
numeral with an optional sign. A fault shows `source`, the value that the text came in. -/
def ofTextIn (source : Value) (s : String) : Except Fault Position :=
  let t := Text.trim s
  if Text.uppered t = "NULL" then .ok null
  else
    match Text.Decimal.read t.toList with
    | .number n => ofInt n
    | .tooLong digits => .error (.argument (.longNumeral digits))
    | .none => .error (.format (.badText source))

/-- The position that a text denotes. A surrogate that stands alone is part of no such text. -/
def ofText (t : Text) : Except Fault Position :=
  match t.plain? with
  | some s => ofTextIn (.text t) s
  | none => .error (.format (.badText (.text t)))

/-- The position that a value denotes. -/
def ofValue : Value → Except Fault Position
  | .mark (.position p) => .ok p
  | .mark (.kind k) => ofTextIn (.mark (.kind k)) k.word
  | .text t => ofText t
  | v => ofWhole v

/-- The position that a document denotes. -/
def ofJson (j : Json) : Except Fault Position := ofValue (Data.ofJson j)

/-- A half of a position: a whole number that fits 32 bits. -/
def half (h : Half) : Value → Except Fault Int
  | .int n =>
    if n < 0 ∨ halfLimit ≤ n then .error (.showing (.int n) (.format (.halfOutOfRange h n)))
    else .ok n
  | v => .error (.showing v (.format (.halfNotWhole h v)))

/-- The position at an offset in a log file. -/
def ofHalves (file offset : Value) : Except Fault Position := do
  let f ← half .file file
  let o ← half .offset offset
  ofInt (f * halfLimit + o)

end Changefeed.Position
