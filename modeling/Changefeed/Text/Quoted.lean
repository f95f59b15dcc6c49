import Changefeed.Text.Basic
import Changefeed.Text.Printable

/-!
# Quoted text

How a text is shown inside a message: between single quotes, or between double
quotes if it holds a single quote and no double one. Inside, the enclosing quote
and the backslash are escaped with a backslash, line feed, carriage return and
tab are written `\n`, `\r` and `\t`, and every other character that is not
printable is written as its code point in two, four or eight hexadecimal digits,
and so is a surrogate that stands alone.
-/

namespace Changefeed.Text

/-- A digit of a hexadecimal number, in lower case. -/
def hexDigit (n : Nat) : Char := if n < 10 then Char.ofNat (48 + n) else Char.ofNat (87 + n)

/-- The last `width` hexadecimal digits of a number. -/
def hexDigits (width n : Nat) : List Char :=
  match width with
  | 0 => []
  | width + 1 => hexDigits width (n / 16) ++ [hexDigit (n % 16)]

/-- The quote that encloses code points. -/
def quoteOf (ns : List Nat) : Char :=
  if ns.contains '\''.toNat && !ns.contains '"'.toNat then '"' else '\''

/-- One character between the quotes `q`. -/
def quoteChar (q c : Char) : List Char :=
  if c = q ∨ c = '\\' then ['\\', c]
  else if c = '\n' then ['\\', 'n']
  else if c = '\r' then ['\\', 'r']
  else if c = '\t' then ['\\', 't']
  else if isPrintable c then [c]
  else if c.toNat < 0x100 then '\\' :: 'x' :: hexDigits 2 c.toNat
  else if c.toNat < 0x10000 then '\\' :: 'u' :: hexDigits 4 c.toNat
  else '\\' :: 'U' :: hexDigits 8 c.toNat

/-- One code point between the quotes `q`. -/
def quotePoint (q : Char) (n : Nat) : List Char :=
  match charOf? n with
  | some c => quoteChar q c
  | none => '\\' :: 'u' :: hexDigits 4 n

/-- A text between quotes. -/
def quoted (t : Text) : String :=
  let q := quoteOf t.points
  String.ofList (q :: t.points.flatMap (quotePoint q) ++ [q])

end Changefeed.Text
