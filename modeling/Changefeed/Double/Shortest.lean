import Changefeed.Double.Basic

/-!
# The shortest digits of a double

A finite double is written with the fewest decimal digits that read back as it,
and of the numerals with that many digits with the one nearest to it. On the
grid of numerals with `n` significant digits only the two neighbours of the
double need to be tried: if any point of the grid reads back, one of them does.
Seventeen digits are always enough.
-/

namespace Changefeed.Double

/-- The power of ten of the first digit of a positive finite double. -/
def leadingPower (x : Double) : Int :=
  if unitsPerOne ≤ x.units then (Nat.toDigits 10 (x.units / unitsPerOne)).length - 1
  else
    let k := (Nat.toDigits 10 (unitsPerOne / x.units)).length
    if x.units * Nat.pow 10 (k - 1) = unitsPerOne then 1 - (k : Int) else -(k : Int)

/-- A numeral `m * 10 ^ e` of `n` significant digits that reads back as `x`: the nearer
neighbour of `x` if it does, else the other one if it does. -/
def numeral? (x : Double) (n : Nat) : Option (Nat × Int) :=
  let e := x.leadingPower - n + 1
  let num := x.units * Nat.pow 10 (-e).toNat
  let den := unitsPerOne * Nat.pow 10 e.toNat
  let near := roundDiv num den
  let far := if near = num / den then near + 1 else near - 1
  if ofDecimal x.negative near e = x then some (near, e)
  else if ofDecimal x.negative far e = x then some (far, e)
  else none

/-- The shortest numeral `m * 10 ^ e` that reads back as a positive finite double, or, had none
of 17 digits done so, its exact value. -/
def shortest (x : Double) : Nat × Int :=
  ((List.range 17).findSome? fun n => x.numeral? (n + 1)).getD (x.units * Nat.pow 5 1074, -1074)

/-- How doubles are laid out as text. -/
structure Layout where
  /-- From this power of ten of the first digit on, a number is written without an exponent. -/
  plainFrom : Int
  /-- From this power on, it is written with one again. -/
  plainBelow : Int
  /-- The least number of digits of an exponent. -/
  exponentWidth : Nat
  /-- The text of infinity. -/
  infinity : String
  /-- The text of what is no number. -/
  nan : String

/-- Digits without the zeros at their end. -/
def significant (ds : List Char) : List Char := (ds.reverse.dropWhile (· = '0')).reverse

/-- Zeros. -/
def zeros (n : Int) : List Char := List.replicate n.toNat '0'

/-- A number that begins with the digits `ds`, the first of which counts `10 ^ power`, without an
exponent; it shows at least one digit on either side of the point. -/
def plainText (ds : List Char) (power : Int) : List Char :=
  if power < 0 then '0' :: '.' :: zeros (-power - 1) ++ ds
  else
    let whole := power.toNat + 1
    if ds.length ≤ whole then ds ++ zeros (whole - ds.length) ++ ['.', '0']
    else ds.take whole ++ '.' :: ds.drop whole

/-- The same number with an exponent: the first digit, the others behind a point, the power. -/
def exponentText (layout : Layout) (ds : List Char) (power : Int) : List Char :=
  let mantissa := match ds with
    | [] => []
    | [d] => [d]
    | d :: rest => d :: '.' :: rest
  let exponent := Nat.toDigits 10 power.natAbs
  mantissa ++ 'e' :: (if power < 0 then '-' else '+') ::
    (zeros (layout.exponentWidth - exponent.length) ++ exponent)

/-- The text of a double in a layout. -/
def render (layout : Layout) (x : Double) : String :=
  let sign := if x.negative then "-" else ""
  if x.isNaN then layout.nan
  else if x.isInfinite then sign ++ layout.infinity
  else if x.isZero then sign ++ "0.0"
  else
    let (m, e) := x.shortest
    let all := Nat.toDigits 10 m
    let power := e + all.length - 1
    let ds := significant all
    sign ++ String.ofList
      (if layout.plainFrom ≤ power ∧ power < layout.plainBelow then plainText ds power
       else exponentText layout ds power)

end Changefeed.Double
