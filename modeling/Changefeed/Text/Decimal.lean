/-!
# Decimal numerals

Reading whole numbers in decimal digits. A numeral of more than
`Decimal.longest` digits is refused wherever a text is read as a whole number,
and no whole number is written with more: the time to convert one grows with the
square of its length, and no number of this domain is that long.
-/

namespace Changefeed.Text.Decimal

/-- Whether a character is an ASCII digit. -/
def isDigit (c : Char) : Bool := '0' ≤ c && c ≤ '9'

/-- The number that a run of digits stands for. -/
def value (cs : List Char) : Nat := cs.foldl (fun n c => 10 * n + (c.toNat - 48)) 0

/-- The most digits that a whole number may be written with. -/
def longest : Nat := 4300

/-- A sign, if a text begins with one (`true` for minus), and the rest. -/
def splitSign : List Char → Bool × List Char
  | '-' :: cs => (true, cs)
  | '+' :: cs => (false, cs)
  | cs => (false, cs)

/-- Whether a number can be written: its sign does not count. -/
def isShort (n : Int) : Bool := (Nat.toDigits 10 n.natAbs).length ≤ longest

/-- A number with its sign. -/
def signed (negative : Bool) (n : Nat) : Int := if negative then -(n : Int) else n

/-- What can come of reading a text as a whole number. -/
inductive Numeral where
  /-- It is one. -/
  | number (n : Int)
  /-- It is one, but has this many digits, which is too many. -/
  | tooLong (count : Nat)
  /-- It is none. -/
  | none

/-- Reads an optional sign and one or more digits, and nothing else. -/
def read (cs : List Char) : Numeral :=
  let (negative, ds) := splitSign cs
  if ds.isEmpty || !ds.all isDigit then .none
  else if ds.length > longest then .tooLong ds.length
  else .number (signed negative (value ds))

end Changefeed.Text.Decimal
